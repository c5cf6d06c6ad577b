import DynProto.Json.Parser
import DynProto.Json.Printer
import DynProto.Proofs.Text.Decimal

/-!
# Strings and integers in JSON text

A string is read as what was quoted, whatever its characters are (`stringBody_flatMap_escape`), and
an integer as the number that was written, if what follows cannot be taken for more of it
(`number?_chars`).
-/

namespace DynProto.Json

/-! ## Blanks -/

/-- Blanks in front are skipped. -/
theorem skipBlanks_append {blanks : List Char} (h : ∀ c ∈ blanks, isBlank c = true)
    (rest : List Char) : skipBlanks (blanks ++ rest) = skipBlanks rest :=
  List.dropWhile_append_of_pos h

/-- Nothing is skipped where the text does not start with a blank. -/
theorem skipBlanks_cons {c : Char} (h : isBlank c = false) (rest : List Char) :
    skipBlanks (c :: rest) = c :: rest :=
  List.dropWhile_cons_of_neg (by simp [h])

/-! ## Strings -/

/-- The hexadecimal digit of a number below sixteen is read as the number. -/
theorem hexValue?_hexDigit : ∀ n < 16, hexValue? (hexDigit n) = some n := by
  decide

/-- The last two of four hexadecimal digits may spell any octet. -/
theorem hex4?_octet {n : Nat} (h : n < 256) :
    hex4? '0' '0' (hexDigit (n / 16)) (hexDigit (n % 16)) = some n := by
  have hzero : hexValue? '0' = some 0 := by decide
  have hhigh := hexValue?_hexDigit (n / 16) (by omega)
  have hlow := hexValue?_hexDigit (n % 16) (by omega)
  simp only [hex4?, hzero, hhigh, hlow, Option.bind_eq_bind, Option.bind_some, Option.some.injEq]
  omega

/-- What is written for a character is read as the character. -/
theorem stringBody_escape (c : Char) (rest : List Char) :
    stringBody (escape c ++ rest) = (stringBody rest).map fun (cs, rest) => (c :: cs, rest) := by
  unfold escape
  split_ifs with hquote hbackslash hb hf hn hr ht hcontrol
  case pos | pos | pos | pos | pos | pos | pos =>
    subst c
    simp [stringBody, escaped?]
  · -- a control character is written by its number
    have hhigh : isHighSurrogate c.toNat = false := by simp [isHighSurrogate]; omega
    have hlow : isLowSurrogate c.toNat = false := by simp [isLowSurrogate]; omega
    simp only [List.cons_append, List.nil_append]
    rw [stringBody, hex4?_octet (by omega)]
    simp only [hhigh, hlow, Bool.false_eq_true, if_false, Char.ofNat_toNat]
  · rw [List.singleton_append, stringBody.eq_def]
    split <;> simp_all

/-- What is written for the characters of a string is read as these, up to the closing quote. -/
theorem stringBody_flatMap_escape (cs rest : List Char) :
    stringBody (cs.flatMap escape ++ '"' :: rest) = some (cs, rest) := by
  induction cs with
  | nil => rfl
  | cons c cs ih =>
    rw [List.flatMap_cons, List.append_assoc, stringBody_escape, ih]
    rfl

/-! ## Integers -/

/-- What follows a number is none of the characters with which a number may go on. -/
def EndsNumber (rest : List Char) : Prop :=
  ∀ c ∈ rest.head?, c.isDigit = false ∧ c ≠ '.' ∧ c ≠ 'e' ∧ c ≠ 'E'

/-- At the end of a text a number ends. -/
theorem endsNumber_nil : EndsNumber [] := by
  intro c hc
  cases hc

/-- An integer that is held in the form for its sign. -/
def Number.Integral : Number → Prop
  | natural _ => True
  | negative n => n < 0
  | double _ => False

variable {rest : List Char}

/-- Digits are read up to where the number ends. -/
theorem digitSpan_append {ds : List Char} (hds : ds.all Char.isDigit = true)
    (hrest : EndsNumber rest) : digitSpan (ds ++ rest) = (ds, rest) := by
  obtain ⟨htake, hdrop⟩ := Text.takeWhile_isDigit_append (List.all_eq_true.1 hds) fun c hc =>
    (hrest c hc).1
  rw [digitSpan, htake, hdrop]

/-- There is no fraction where the number ends. -/
theorem fractionPart_of_endsNumber (hrest : EndsNumber rest) :
    fractionPart rest = some (none, rest) := by
  unfold fractionPart
  split
  · exact absurd rfl (hrest _ rfl).2.1
  · rfl

/-- There is no exponent where the number ends. -/
theorem exponentPart_of_endsNumber (hrest : EndsNumber rest) :
    exponentPart rest = some (none, rest) := by
  unfold exponentPart
  cases rest with
  | nil => rfl
  | cons c rest =>
    have hc := (hrest c rfl).2.2
    simp only [hc.1, hc.2, or_self, if_false]

/-- Only zero is written with a zero in front. -/
theorem head?_digits {n : Nat} (h : 1 < (Text.digits n).length) :
    (Text.digits n).head? ≠ some '0' := by
  induction n using Nat.strongRecOn with
  | ind n ih =>
    unfold Text.digits at h ⊢
    split_ifs at h ⊢ with hn
    · simp at h
    · rw [List.head?_append_of_ne_nil _ (Text.digits_ne_nil _)]
      by_cases hlength : 1 < (Text.digits (n / 10)).length
      · exact ih (n / 10) (by omega) hlength
      · -- one digit is left, and it is not zero
        have hlt : n / 10 < 10 := by
          by_contra hge
          apply hlength
          have hpos := List.length_pos_of_ne_nil (Text.digits_ne_nil (n / 10 / 10))
          rw [Text.digits, if_neg hge, List.length_append, List.length_singleton]
          omega
        have hpos : 0 < n / 10 := by omega
        rw [Text.digits, if_pos hlt]
        generalize n / 10 = d at hlt hpos
        revert hpos
        revert d
        decide

/-- Digits without a zero in front, after a sign, are read as an integer literal. -/
theorem unsignedNumber?_append (negative : Bool) {ds : List Char} (hne : ds ≠ [])
    (hdigits : ds.all Char.isDigit = true) (hzero : 1 < ds.length → ds.head? ≠ some '0')
    (hrest : EndsNumber rest) :
    unsignedNumber? negative (ds ++ rest)
      = (integerLiteral? negative (Text.digitsValue ds)).map fun number => (number, rest) := by
  have hstart : (ds.isEmpty || decide (ds.length > 1) && ds.head? == some '0') = false := by
    rw [Bool.or_eq_false_iff]
    refine ⟨by simpa using hne, ?_⟩
    by_cases hlength : 1 < ds.length
    · simpa [hlength] using hzero hlength
    · simp [hlength]
  rw [unsignedNumber?, digitSpan_append hdigits hrest]
  simp only [hstart, Bool.false_eq_true, if_false, fractionPart_of_endsNumber hrest,
    exponentPart_of_endsNumber hrest, Option.bind_eq_bind, Option.bind_some]
  cases integerLiteral? negative (Text.digitsValue ds) <;> rfl

/-- The digits of a number, after its sign, are read as an integer literal. -/
theorem unsignedNumber?_digits (negative : Bool) (n : Nat) (hrest : EndsNumber rest) :
    unsignedNumber? negative (Text.digits n ++ rest)
      = (integerLiteral? negative n).map fun number => (number, rest) := by
  rw [unsignedNumber?_append negative (Text.digits_ne_nil n) (Text.all_isDigit_digits n)
    head?_digits hrest, Text.digitsValue_digits]

/-- The digits of a number start with a digit. -/
theorem exists_digits_eq_cons (n : Nat) :
    ∃ c cs, Text.digits n = c :: cs ∧ c.isDigit = true := by
  obtain ⟨c, cs, hcs⟩ := List.exists_cons_of_ne_nil (Text.digits_ne_nil n)
  exact ⟨c, cs, hcs, Text.head_digits_isDigit hcs⟩

/-- A negative integer is written as a minus sign and the digits of its magnitude. -/
theorem exists_chars_negative {n : Int64} (h : (Number.negative n).Integral) :
    ∃ k : Nat, n.toInt = -((k + 1 : Nat) : Int) ∧
      (Number.negative n).chars = '-' :: Text.digits (k + 1) := by
  have hneg : n.toInt < (0 : Int64).toInt := Int64.lt_iff_toInt_lt.1 h
  obtain ⟨k, hk⟩ := Int.eq_negSucc_of_lt_zero hneg
  refine ⟨k, hk, ?_⟩
  rw [Number.chars, hk, Text.integerChars]

/-- The characters of an integer start with a digit or with a minus sign. -/
theorem exists_chars_eq_cons {n : Number} (h : n.Integral) :
    ∃ c cs, n.chars = c :: cs ∧ (c.isDigit = true ∨ c = '-') := by
  cases n with
  | natural n =>
    obtain ⟨c, cs, hcs, hdigit⟩ := exists_digits_eq_cons n.toNat
    exact ⟨c, cs, hcs, .inl hdigit⟩
  | negative n =>
    obtain ⟨k, _, hchars⟩ := exists_chars_negative h
    exact ⟨_, _, hchars, .inr rfl⟩
  | double word => exact h.elim

/-- An integer is read as the number that was written. -/
theorem number?_chars {n : Number} (h : n.Integral) (hrest : EndsNumber rest) :
    number? (n.chars ++ rest) = some (n, rest) := by
  cases n with
  | natural n =>
    have hsign : number? (Text.digits n.toNat ++ rest)
        = unsignedNumber? false (Text.digits n.toNat ++ rest) := by
      obtain ⟨c, cs, hcs, hdigit⟩ := exists_digits_eq_cons n.toNat
      rw [hcs, List.cons_append, number?]
      rintro rest' heq
      cases heq
      exact absurd hdigit (by decide)
    rw [Number.chars, hsign, unsignedNumber?_digits false _ hrest, integerLiteral?]
    simp [n.toNat_lt]
  | negative n =>
    obtain ⟨k, hk, hchars⟩ := exists_chars_negative h
    have hmin : Int64.minValue.toInt ≤ n.toInt := n.minValue_le_toInt
    rw [hchars, List.cons_append, number?, unsignedNumber?_digits true _ hrest, integerLiteral?,
      ← hk]
    simp only [Bool.not_true, Bool.false_and, Bool.false_eq_true, if_false, Nat.succ_pos,
      decide_true, Bool.true_and, hmin, if_true, Int64.ofInt_toInt, Option.map_some]
  | double word => exact h.elim

end DynProto.Json
