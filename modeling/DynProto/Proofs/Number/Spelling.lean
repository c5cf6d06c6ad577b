import DynProto.Proofs.Number.Decimal

/-!
# Floating-point numbers as they are spelled

A numeral is digits with a point among them or without one, and an exponent behind them or none; it
spells a rational number (`SpellsNumeral`). A text is read as a floating-point number exactly if it
spells, after a sign or without one, a numeral or one of the words for infinity and not-a-number
(`double?_eq_some_iff`); of a numeral the word is that of the rounded value.
-/

namespace DynProto.Number

/-! ## Numerals -/

/-- The characters of an exponent, if there is one: the letter e, in either case, and an integer. -/
inductive SpellsExponent : List Char → Int → Prop
  /-- There is none. -/
  | none : SpellsExponent [] 0
  /-- There is one. -/
  | some {c : Char} {cs : List Char} {e : Int} (hc : c = 'e' ∨ c = 'E')
      (h : Text.SpellsInteger true cs e) : SpellsExponent (c :: cs) e

/-- The characters of a numeral, with the number that it spells. -/
inductive SpellsNumeral : List Char → ℚ → Prop
  /-- There is no point. -/
  | whole {ds exponent : List Char} {e : Int} (hne : ds ≠ [])
      (hdigits : ∀ c ∈ ds, c.isDigit = true) (hexponent : SpellsExponent exponent e) :
      SpellsNumeral (ds ++ exponent) (Text.digitsValue ds * 10 ^ e)
  /-- There is a point, with a digit on one of its sides at least. -/
  | point {ds fraction exponent : List Char} {e : Int} (hne : ds ≠ [] ∨ fraction ≠ [])
      (hdigits : ∀ c ∈ ds, c.isDigit = true) (hfraction : ∀ c ∈ fraction, c.isDigit = true)
      (hexponent : SpellsExponent exponent e) :
      SpellsNumeral (ds ++ '.' :: (fraction ++ exponent))
        (Text.digitsValue (ds ++ fraction) * 10 ^ (e - fraction.length))

/-- The number that a numeral stands for. -/
def Numeral.value (n : Numeral) : ℚ :=
  Text.digitsValue (n.whole ++ n.fraction) * 10 ^ (n.exponent - n.fraction.length)

/-- The magnitude of a numeral is nearest to the number that it stands for. -/
theorem Numeral.nearest_magnitude (n : Numeral) :
    Format.double.Nearest (n.magnitude .double) n.value where
  le_infinity := Format.double.decimal_le_infinity _ _
  lt_iff _ hk := Format.double.lt_decimal_iff Format.withinOrders_double hk _ _

/-- An exponent is read as it is spelled. -/
theorem exponent?_eq_some_iff {cs : List Char} {e : Int} :
    exponent? cs = some e ↔ SpellsExponent cs e := by
  constructor
  · intro h
    cases cs with
    | nil =>
      cases h
      exact .none
    | cons c cs =>
      rw [exponent?] at h
      split at h
      · rename_i hc
        exact .some hc (Text.integer?_eq_some_iff.1 h)
      · cases h
  · rintro (_ | ⟨hc, h⟩)
    · rfl
    · rw [exponent?, if_pos hc]
      exact Text.integer?_eq_some_iff.2 h

/-- An exponent starts with neither a digit nor a point. -/
theorem SpellsExponent.head_ne {cs : List Char} {e : Int} (h : SpellsExponent cs e) :
    ∀ c ∈ cs.head?, c.isDigit = false ∧ c ≠ '.' := by
  rintro c hc
  rcases h with _ | ⟨rfl | rfl, _⟩
  · cases hc
  all_goals
    cases hc
    decide

/-- What spells a number is read as a numeral that stands for it. -/
theorem SpellsNumeral.exists_numeral? {cs : List Char} {q : ℚ} (h : SpellsNumeral cs q) :
    ∃ n, numeral? cs = some n ∧ n.value = q := by
  cases h with
  | @whole ds exponent e hne hdigits hexponent =>
    obtain ⟨htake, hdrop⟩ :=
      Text.takeWhile_isDigit_append hdigits fun c hc => (hexponent.head_ne c hc).1
    refine ⟨⟨ds, [], e⟩, ?_, by simp [Numeral.value]⟩
    unfold numeral?
    simp only [htake, hdrop]
    split
    · exact absurd rfl (hexponent.head_ne _ rfl).2
    · rw [if_neg (by simpa using hne), exponent?_eq_some_iff.2 hexponent]
      rfl
  | @point ds fraction exponent e hne hdigits hfraction hexponent =>
    have hpoint : ∀ c ∈ ('.' :: (fraction ++ exponent)).head?, c.isDigit = false := by
      rintro c hc
      cases hc
      rfl
    obtain ⟨htake, hdrop⟩ := Text.takeWhile_isDigit_append hdigits hpoint
    obtain ⟨htake', hdrop'⟩ :=
      Text.takeWhile_isDigit_append hfraction fun c hc => (hexponent.head_ne c hc).1
    refine ⟨⟨ds, fraction, e⟩, ?_, rfl⟩
    unfold numeral?
    simp only [htake, hdrop, htake', hdrop', exponent?_eq_some_iff.2 hexponent]
    rw [if_neg]
    · rfl
    · rw [Bool.and_eq_true, List.isEmpty_iff, List.isEmpty_iff]
      exact fun h => hne.elim (fun h' => h' h.1) fun h' => h' h.2

/-- What is read as a numeral spells the number that this stands for. -/
theorem spellsNumeral_of_numeral? {cs : List Char} {n : Numeral} (h : numeral? cs = some n) :
    SpellsNumeral cs n.value := by
  have hdigits : ∀ {cs : List Char}, ∀ c ∈ cs.takeWhile Char.isDigit, c.isDigit = true :=
    fun c hc => List.mem_takeWhile_imp hc
  have hsplit : ∀ cs : List Char,
      cs = cs.takeWhile Char.isDigit ++ cs.dropWhile Char.isDigit :=
    fun cs => List.takeWhile_append_dropWhile.symm
  unfold numeral? at h
  simp only at h
  split at h
  · rename_i rest hdrop
    split at h
    · cases h
    · rename_i hne
      obtain ⟨e, he, rfl⟩ := Option.map_eq_some_iff.1 h
      rw [Bool.and_eq_true, List.isEmpty_iff, List.isEmpty_iff, not_and_or] at hne
      have hspelled := SpellsNumeral.point hne hdigits hdigits (exponent?_eq_some_iff.1 he)
      rwa [← hsplit, ← hdrop, ← hsplit] at hspelled
  · split at h
    · cases h
    · rename_i hne
      obtain ⟨e, he, rfl⟩ := Option.map_eq_some_iff.1 h
      have hspelled := SpellsNumeral.whole (by simpa using hne) hdigits (exponent?_eq_some_iff.1 he)
      rw [← hsplit] at hspelled
      simpa [Numeral.value] using hspelled

/-! ## Words for infinity and not-a-number -/

/-- The characters of a word for infinity or for not-a-number, in small letters or capitals. -/
def SpellsSpecial (cs : List Char) : Prop :=
  cs.map Char.toLower = ['i', 'n', 'f'] ∨
    cs.map Char.toLower = ['i', 'n', 'f', 'i', 'n', 'i', 't', 'y'] ∨
    cs.map Char.toLower = ['n', 'a', 'n']

/-- A digit or a point is not a capital or small letter with which a word starts. -/
theorem toLower_of_isDigit {c : Char} (h : c.isDigit = true ∨ c = '.') :
    c.toLower ≠ 'i' ∧ c.toLower ≠ 'n' := by
  rcases h with hdigit | rfl
  · have hle : c.val ≤ '9'.val := by
      simp only [Char.isDigit, Bool.and_eq_true, decide_eq_true_eq] at hdigit
      exact hdigit.2
    have hself : c.toLower = c := by
      unfold Char.toLower
      rw [dif_neg]
      rintro ⟨hcapital, _⟩
      exact absurd (UInt32.le_trans hcapital hle) (by decide)
    rw [hself]
    constructor <;> rintro rfl <;> exact absurd hdigit (by decide)
  · decide

/-- A numeral starts with a digit or a point. -/
theorem SpellsNumeral.exists_eq_cons {cs : List Char} {q : ℚ} (h : SpellsNumeral cs q) :
    ∃ c rest, cs = c :: rest ∧ (c.isDigit = true ∨ c = '.') := by
  cases h with
  | @whole ds exponent e hne hdigits hexponent =>
    obtain ⟨c, ds, rfl⟩ := List.exists_cons_of_ne_nil hne
    exact ⟨c, _, rfl, .inl (hdigits c List.mem_cons_self)⟩
  | @point ds fraction exponent e hne hdigits hfraction hexponent =>
    rcases ds with _ | ⟨c, ds⟩
    · exact ⟨'.', _, rfl, .inr rfl⟩
    · exact ⟨c, _, rfl, .inl (hdigits c List.mem_cons_self)⟩

/-- A word starts with a letter. -/
theorem SpellsSpecial.exists_eq_cons {cs : List Char} (h : SpellsSpecial cs) :
    ∃ c rest, cs = c :: rest ∧ (c.toLower = 'i' ∨ c.toLower = 'n') := by
  cases cs with
  | nil => rcases h with h | h | h <;> cases h
  | cons c rest =>
    refine ⟨c, rest, rfl, ?_⟩
    rcases h with h | h | h
    · exact .inl (List.cons.inj h).1
    · exact .inl (List.cons.inj h).1
    · exact .inr (List.cons.inj h).1

/-- A numeral is no word. -/
theorem SpellsNumeral.not_special {cs : List Char} {q : ℚ} (h : SpellsNumeral cs q) :
    ¬ SpellsSpecial cs := by
  intro hspecial
  obtain ⟨c, rest, rfl, hc⟩ := h.exists_eq_cons
  obtain ⟨c', rest', heq, hc'⟩ := hspecial.exists_eq_cons
  cases heq
  have hlower := toLower_of_isDigit hc
  exact hc'.elim hlower.1 hlower.2

/-! ## Numbers with a sign -/

/-- Characters of some kind after a sign, or without one. -/
inductive AfterSign (spells : List Char → Prop) : Bool → List Char → Prop
  /-- There is no sign. -/
  | bare {cs : List Char} (h : spells cs) : AfterSign spells false cs
  /-- There is a plus sign. -/
  | plus {cs : List Char} (h : spells cs) : AfterSign spells false ('+' :: cs)
  /-- There is a minus sign. -/
  | minus {cs : List Char} (h : spells cs) : AfterSign spells true ('-' :: cs)

/-- A numeral is read as the magnitude nearest to it. -/
theorem magnitude?_of_numeral? {cs : List Char} {n : Numeral} (h : numeral? cs = some n) :
    magnitude? cs = some (n.magnitude .double) := by
  have hspecial := (spellsNumeral_of_numeral? h).not_special
  simp only [SpellsSpecial, not_or] at hspecial
  unfold magnitude?
  simp only [hspecial, h, or_self, if_false, Option.map_some]

/-- What is read as a magnitude is a numeral or a word. -/
theorem numeral?_of_magnitude? {cs : List Char} {m : Nat} (h : magnitude? cs = some m) :
    (∃ n, numeral? cs = some n ∧ n.magnitude .double = m) ∨ SpellsSpecial cs := by
  unfold magnitude? at h
  simp only at h
  split at h
  · rename_i hword
    exact .inr (hword.elim .inl fun h => .inr (.inl h))
  split at h
  · rename_i hword
    exact .inr (.inr (.inr hword))
  · exact .inl (Option.map_eq_some_iff.1 h)

/-- A numeral after a sign or without one is read as the number nearest to it. -/
theorem double?_of_spells {cs : List Char} {negative : Bool} {q : ℚ}
    (h : AfterSign (SpellsNumeral · q) negative cs) :
    ∃ n : Numeral, n.value = q ∧
      double? cs = some (Format.double.signed negative (n.magnitude .double)).toUInt64 := by
  rcases h with h | h | h
  all_goals obtain ⟨n, hn, hvalue⟩ := h.exists_numeral?
  · refine ⟨n, hvalue, ?_⟩
    obtain ⟨c, rest, rfl, hc⟩ := h.exists_eq_cons
    unfold double?
    split
    · rename_i heq
      cases heq
      exact absurd hc (by decide)
    · rename_i heq
      cases heq
      exact absurd hc (by decide)
    · simp only [magnitude?_of_numeral? hn, Option.map_some, Format.signed, Bool.false_eq_true,
        if_false]
  · refine ⟨n, hvalue, ?_⟩
    simp only [double?, magnitude?_of_numeral? hn, Option.map_some, Format.signed,
      Bool.false_eq_true, if_false]
  · refine ⟨n, hvalue, ?_⟩
    simp only [double?, magnitude?_of_numeral? hn, Option.map_some]

/-- What is read as a number is a numeral or a word, after a sign or without one. -/
theorem spells_of_double? {cs : List Char} {word : UInt64} (h : double? cs = some word) :
    (∃ negative n, AfterSign (SpellsNumeral · n.value) negative cs ∧
      (Format.double.signed negative (Numeral.magnitude n .double)).toUInt64 = word) ∨
      ∃ negative, AfterSign SpellsSpecial negative cs := by
  have hpositive : ∀ m, (Format.double.signed false m).toUInt64 = m.toUInt64 := fun m => by
    simp only [Format.signed, Bool.false_eq_true, if_false]
  unfold double? at h
  split at h
  all_goals
    obtain ⟨m, hm, rfl⟩ := Option.map_eq_some_iff.1 h
    rcases numeral?_of_magnitude? hm with ⟨n, hn, rfl⟩ | hspecial
  · exact .inl ⟨true, n, .minus (spellsNumeral_of_numeral? hn), rfl⟩
  · exact .inr ⟨true, .minus hspecial⟩
  · exact .inl ⟨false, n, .plus (spellsNumeral_of_numeral? hn), hpositive _⟩
  · exact .inr ⟨false, .plus hspecial⟩
  · exact .inl ⟨false, n, .bare (spellsNumeral_of_numeral? hn), hpositive _⟩
  · exact .inr ⟨false, .bare hspecial⟩

end DynProto.Number
