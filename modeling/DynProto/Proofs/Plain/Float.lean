import DynProto.Proofs.Number.Spelling
import DynProto.Proofs.Plain.Integer

/-!
# Floating-point numbers that are too large

A value gives a number in figures if it is a number, or a string that spells a numeral
(`Json.HasMagnitude`). It is read as the floating-point number of 64 bits that is nearest to it
(`exists_nearest`), and everything else follows from where rounding goes beyond a magnitude: from
the middle after the greatest finite one on a numeral is read as infinity, and for 32 bits the
numbers beyond the middle after the greatest of these are refused, as long as they are finite with
64 bits. Other infinities and not-a-numbers are read from the words for them only
(`exists_string_of_not_isFinite`).
-/

namespace DynProto

open DynProto.Number (Format AfterSign SpellsNumeral SpellsSpecial)

/-! ## Where rounding overflows -/

namespace Number.Format

/-- The nearest magnitude is finite exactly if the number lies below the middle after the greatest
finite one. -/
theorem Nearest.lt_infinity_iff {m : Nat} {q : ℚ} (h : double.Nearest m q) :
    m < double.infinity ↔ q < 2 ^ 1024 - 2 ^ 970 := by
  have hmiddle : double.middle (double.infinity - 1) = 2 ^ 1024 - 2 ^ 970 := by
    have hk : double.units (double.infinity - 1) + double.units (double.infinity - 1 + 1)
        = 2 * (2 ^ 1024 - 2 ^ 970) * 2 ^ double.scale := by decide +kernel
    have hcast : ∀ {a b : Nat}, a ≤ b → ((2 ^ b - 2 ^ a : Nat) : ℚ) = 2 ^ b - 2 ^ a := by
      intro a b hab
      rw [Nat.cast_sub (Nat.pow_le_pow_right (by decide) hab), Nat.cast_pow, Nat.cast_pow,
        Nat.cast_ofNat]
    exact (double.middle_eq_natCast hk).trans (hcast (by decide))
  have hlt := h.lt_iff (double.infinity - 1) (by decide)
  have hodd : (double.infinity - 1) % 2 = 1 := by decide
  rw [hmiddle] at hlt
  simp only [hodd, and_true, ← le_iff_lt_or_eq] at hlt
  have hpos : 0 < double.infinity := by decide
  have hge : double.infinity ≤ m ↔ 2 ^ 1024 - 2 ^ 970 ≤ q := by
    rw [← hlt]
    omega
  rw [← not_le, hge, not_le]

/-- The nearest magnitude is greater than that of the greatest finite number of 32 bits exactly if
the number lies beyond the middle after that one. -/
theorem Nearest.maxSingle_lt_iff {m : Nat} {q : ℚ} (h : double.Nearest m q) :
    Plain.maxSingle < m ↔ 2 ^ 128 - 2 ^ 104 + 2 ^ 74 < q := by
  have hmax : Plain.maxSingle = 0x47EFFFFFE0000000 := by decide +kernel
  have hmiddle : double.middle Plain.maxSingle = 2 ^ 128 - 2 ^ 104 + 2 ^ 74 := by
    have hk : double.units Plain.maxSingle + double.units (Plain.maxSingle + 1)
        = 2 * (2 ^ 128 - 2 ^ 104 + 2 ^ 74) * 2 ^ double.scale := by decide +kernel
    rw [double.middle_eq_natCast hk]
    norm_num
  have heven : Plain.maxSingle % 2 = 0 := by rw [hmax]
  rw [h.lt_iff _ (by rw [hmax]; decide), hmiddle, heven]
  simp

end Number.Format

/-! ## Narrowing -/

namespace Number

/-- What a number of 64 bits is narrowed to is finite if its magnitude is. -/
theorem isFinite_narrow_of_convert {word : UInt64} {m : Nat}
    (h : Format.double.convert .single word.toNat
      = Format.single.signed (Format.double.isNegative word.toNat) m)
    (hle : m ≤ Format.single.infinity) :
    Format.single.isFinite (narrow word).toNat = decide (m < Format.single.infinity) := by
  have hlt := hle.trans_lt Format.single.infinity_lt_signBit
  have hword : word.toNat = Format.double.signed (Format.double.isNegative word.toNat)
      (Format.double.magnitude word.toNat) := (Format.double.signed_magnitude word.toNat_lt).symm
  rw [narrow_of_signed hword (Nat.mod_lt _ (by decide)) h, Format.isFinite,
    Format.toNat_signed_single _ hlt, Format.magnitude_signed _ _ hlt]

/-- A number of 64 bits up to the greatest one of 32 bits stays finite when it is narrowed. -/
theorem isFinite_narrow {word : UInt64} (hfinite : Format.double.isFinite word.toNat = true)
    (hle : Format.double.magnitude word.toNat ≤ Plain.maxSingle) :
    Format.single.isFinite (narrow word).toNat = true := by
  have hgreatest : Format.single.ofRatio (Format.double.units Plain.maxSingle)
      (Nat.pow 2 Format.double.scale) < Format.single.infinity := by decide +kernel
  have hpos : 0 < Nat.pow 2 Format.double.scale := by
    rw [Nat.pow_eq]
    positivity
  have hratio : Format.single.ofRatio
      (Format.double.units (Format.double.magnitude word.toNat)) (Nat.pow 2 Format.double.scale)
      ≤ Format.single.ofRatio (Format.double.units Plain.maxSingle)
        (Nat.pow 2 Format.double.scale) :=
    Format.single.ofRatio_le_ofRatio (by decide) hpos hpos
      (Nat.mul_le_mul_right _ (Format.double.units_le_units hle))
  have hconvert := Format.convert_of_finite .single (of_decide_eq_true hfinite)
  rw [isFinite_narrow_of_convert hconvert (Format.nearest_le_infinity _ _ _)]
  exact decide_eq_true (hratio.trans_lt hgreatest)

/-- An infinite number stays infinite when it is narrowed. -/
theorem isFinite_narrow_of_infinite {word : UInt64}
    (h : Format.double.magnitude word.toNat = Format.double.infinity) :
    Format.single.isFinite (narrow word).toNat = false := by
  rw [isFinite_narrow_of_convert (Format.convert_of_infinite .single h) (Nat.le_refl _)]
  exact decide_eq_false (Nat.lt_irrefl _)

end Number

/-- Whether a value is not an infinite floating-point number or a not-a-number. -/
def Value.isFinite : Value → Bool
  | f64 word => Format.double.isFinite word.toNat
  | f32 word => Format.single.isFinite word.toNat
  | _ => true

/-- The magnitude of the number that a value gives in figures: of a number itself, or of the
numeral that a string spells between its blanks. -/
inductive Json.HasMagnitude : Json → ℚ → Prop
  /-- A number has the magnitude of its value. -/
  | number {n : Json.Number} (h : n.Finite) : HasMagnitude (.number n) |n.value|
  /-- A string has the magnitude of the numeral. -/
  | string {s : String} {negative : Bool} {q : ℚ}
      (h : AfterSign (SpellsNumeral · q) negative (Text.trim s.toList)) :
      HasMagnitude (.string s) q

namespace Plain

open Wire (except_bind_eq_ok)

/-- A string is read as the floating-point number that it spells. -/
theorem readDouble_string (s : String) :
    readDouble (.string s) = match Number.double? (Text.trim s.toList) with
      | some word => .ok word
      | none => .error (.notFloat s) := by
  unfold readDouble
  simp only
  split_ifs with hnan hinf hneg
  · subst hnan
    rfl
  · subst hinf
    rfl
  · subst hneg
    rfl
  · rfl

/-- A value that gives a number in figures is read as the nearest floating-point number. -/
theorem exists_nearest {json : Json} {q : ℚ} (h : json.HasMagnitude q) :
    ∃ word, readDouble json = .ok word ∧
      Format.double.Nearest (Format.double.magnitude word.toNat) q := by
  have hsigned : ∀ negative {m : Nat} {q : ℚ}, Format.double.Nearest m q →
      Format.double.Nearest
        (Format.double.magnitude (Format.double.signed negative m).toUInt64.toNat) q := by
    intro negative m q hm
    have hlt := hm.le_infinity.trans_lt Format.double.infinity_lt_signBit
    rwa [Format.toNat_signed_double negative hlt, Format.magnitude_signed _ _ hlt]
  cases h with
  | @number n hn =>
    refine ⟨n.toDouble, rfl, ?_⟩
    have hinteger : ∀ i : Int, Format.double.Nearest
        (Format.double.magnitude (Format.double.ofInt i).toUInt64.toNat) |(i : ℚ)| := by
      intro i
      rw [← Int.cast_abs, ← Nat.cast_natAbs]
      refine hsigned _ ?_
      simpa using Format.nearest_ofRatio i.natAbs Nat.one_pos
    cases n with
    | natural n => exact hinteger n.toNat
    | negative n => exact hinteger n.toInt
    | double word =>
      rw [Json.Number.value, Format.abs_value]
      exact Format.nearest_self _ (of_decide_eq_true hn)
  | @string s negative q h =>
    obtain ⟨n, rfl, hword⟩ := Number.double?_of_spells h
    exact ⟨_, by rw [readDouble_string, hword], hsigned negative (n.nearest_magnitude)⟩

/-- For 64 bits, a value that gives a number in figures is read as the nearest number. -/
theorem readScalar_double_of_magnitude {json : Json} {q : ℚ} (h : json.HasMagnitude q) :
    ∃ word, readScalar .double json = .ok (.f64 word) ∧
      ((Value.f64 word).isFinite = true ↔ q < 2 ^ 1024 - 2 ^ 970) := by
  obtain ⟨word, hword, hnearest⟩ := exists_nearest h
  refine ⟨word, except_map_eq_ok.2 ⟨word, hword, rfl⟩, ?_⟩
  rw [Value.isFinite, Format.isFinite, decide_eq_true_eq, hnearest.lt_infinity_iff]

/-- A value that gives a number in figures is refused for 32 bits if it is rounded to a finite
number of 64 bits beyond the greatest one of 32 bits. -/
theorem readScalar_float_of_magnitude {json : Json} {q : ℚ} (h : json.HasMagnitude q) :
    if 2 ^ 128 - 2 ^ 104 + 2 ^ 74 < q ∧ q < 2 ^ 1024 - 2 ^ 970 then
      ∃ word, readScalar .float json = .error (.floatRange word)
    else ∃ word, readScalar .float json = .ok (.f32 word) ∧
      ((Value.f32 word).isFinite = true ↔ q < 2 ^ 1024 - 2 ^ 970) := by
  obtain ⟨word, hword, hnearest⟩ := exists_nearest h
  have hsingle : singleOfDouble word
      = if 2 ^ 128 - 2 ^ 104 + 2 ^ 74 < q ∧ q < 2 ^ 1024 - 2 ^ 970 then .error (.floatRange word)
        else .ok (Number.narrow word) := by
    simp only [singleOfDouble, Format.isFinite, Bool.and_eq_true, decide_eq_true_eq,
      hnearest.lt_infinity_iff, hnearest.maxSingle_lt_iff, and_comm]
  rw [readScalar, hword]
  split
  · rename_i hrange
    rw [if_pos hrange] at hsingle
    refine ⟨word, ?_⟩
    show (singleOfDouble word >>= _) = _
    rw [hsingle]
    rfl
  · rename_i hrange
    rw [if_neg hrange] at hsingle
    refine ⟨Number.narrow word, ?_, ?_⟩
    · show (singleOfDouble word >>= _) = _
      rw [hsingle]
      rfl
    · rw [Value.isFinite, ← hnearest.lt_infinity_iff]
      rcases Nat.lt_or_eq_of_le hnearest.le_infinity with hlt | heq
      · have hle : Format.double.magnitude word.toNat ≤ maxSingle := by
          rw [← Nat.not_lt, hnearest.maxSingle_lt_iff]
          exact fun hbeyond => hrange ⟨hbeyond, hnearest.lt_infinity_iff.1 hlt⟩
        exact iff_of_true (Number.isFinite_narrow (decide_eq_true hlt) hle) hlt
      · rw [Number.isFinite_narrow_of_infinite heq, heq]
        simp

/-- A finite number is not rounded to infinity. -/
theorem abs_value_lt {n : Json.Number} (h : n.Finite) : |n.value| < 2 ^ 1024 - 2 ^ 970 := by
  have hdifference : ∀ {a b c : ℚ}, a ≤ b → b * 2 ≤ c → a ≤ c - b := by
    intro a b c hab hbc
    linarith
  have hbound : (2 : ℚ) ^ 64 ≤ 2 ^ 1024 - 2 ^ 970 := by
    refine hdifference (pow_le_pow_right₀ one_le_two (by decide)) ?_
    rw [← pow_succ]
    exact pow_le_pow_right₀ one_le_two (by decide)
  cases n with
  | natural n =>
    have hlt : (n.toNat : ℚ) < 2 ^ 64 := by exact_mod_cast n.toNat_lt
    rw [Json.Number.value, Nat.abs_cast]
    exact hlt.trans_le hbound
  | negative n =>
    have hle : |(n.toInt : ℚ)| < 2 ^ 64 := by
      have hleast : -2 ^ 63 ≤ n.toInt := n.le_toInt
      have hlt : n.toInt < 2 ^ 63 := n.toInt_lt
      rw [← Int.cast_abs]
      have habs : |n.toInt| < 2 ^ 64 := abs_lt.2 ⟨by omega, by omega⟩
      exact_mod_cast habs
    exact hle.trans_le hbound
  | double word =>
    have hlt := of_decide_eq_true h
    rw [Json.Number.value, Format.abs_value]
    exact (Format.nearest_self _ hlt).lt_infinity_iff.1 hlt

/-- What is read as an infinite floating-point number or a not-a-number is a string that spells one,
or a numeral that is too large. -/
theorem exists_string_of_not_isFinite {json : Json} (hjson : json.Finite) {word : UInt64}
    (hread : readDouble json = .ok word) (hinfinite : Format.double.isFinite word.toNat = false) :
    ∃ s, json = .string s ∧
      ((∃ negative, AfterSign SpellsSpecial negative (Text.trim s.toList)) ∨
        ∃ q, json.HasMagnitude q ∧ 2 ^ 1024 - 2 ^ 970 ≤ q) := by
  have hlarge : ∀ {q}, json.HasMagnitude q → 2 ^ 1024 - 2 ^ 970 ≤ q := by
    intro q hq
    obtain ⟨word', hword, hnearest⟩ := exists_nearest hq
    cases hread.symm.trans hword
    rw [← not_lt, ← hnearest.lt_infinity_iff]
    exact of_decide_eq_false hinfinite
  cases json with
  | number n => exact absurd (abs_value_lt hjson) (not_lt.2 (hlarge (.number hjson)))
  | string s =>
    refine ⟨s, rfl, ?_⟩
    rw [readDouble_string] at hread
    split at hread
    · rename_i hword
      rcases Number.spells_of_double? hword with ⟨negative, n, hspelled, -⟩ | hspecial
      · exact .inr ⟨n.value, .string hspelled, hlarge (.string hspelled)⟩
      · exact .inl hspecial
    · cases hread
  | null | bool | array | object => cases hread

/-- A finite number of 64 bits that is accepted for 32 bits stays finite. -/
theorem isFinite_of_singleOfDouble {word : UInt64} {single : UInt32}
    (h : singleOfDouble word = .ok single) (hfinite : Format.double.isFinite word.toNat = true) :
    Format.single.isFinite single.toNat = true := by
  unfold singleOfDouble at h
  split at h
  · cases h
  · rename_i hrange
    cases h
    rw [hfinite, Bool.true_and, decide_eq_true_eq, Nat.not_lt] at hrange
    exact Number.isFinite_narrow hfinite hrange

/-- A string that spells a power of ten. -/
theorem hasMagnitude_pow {s : String} (ds : List Char) {n : Nat}
    (hs : Text.trim s.toList = '1' :: 'e' :: ds) (hne : ds ≠ [])
    (hdigits : ds.all Char.isDigit = true) (hn : Text.digitsValue ds = n) :
    (Json.string s).HasMagnitude (10 ^ n) := by
  have hone : Text.digitsValue ['1'] = 1 := by decide
  have hexponent : Number.SpellsExponent ('e' :: ds) (Text.digitsValue ds) :=
    .some (.inl rfl) (.bare hne (List.all_eq_true.1 hdigits))
  have hdigit : ∀ c ∈ ['1'], c.isDigit = true := by simp
  have hspelled := SpellsNumeral.whole (List.cons_ne_nil '1' []) hdigit hexponent
  rw [hone, hn, Nat.cast_one, one_mul, zpow_natCast, List.singleton_append, ← hs] at hspelled
  exact .string (.bare hspelled)

/-- The number 10³⁹ is too large for 32 bits, but not for 64 bits. -/
theorem range_of_pow_39 :
    (2 : ℚ) ^ 128 - 2 ^ 104 + 2 ^ 74 < 10 ^ 39 ∧ (10 : ℚ) ^ 39 < 2 ^ 1024 - 2 ^ 970 := by
  constructor
  · norm_num
  · have hdifference : ∀ {a b c : ℚ}, a < b → b * 2 ≤ c → a < c - b := by
      intro a b c hab hbc
      linarith
    refine hdifference ?_ ?_
    · calc (10 : ℚ) ^ 39 < 2 ^ 130 := by norm_num
        _ ≤ 2 ^ 970 := pow_le_pow_right₀ one_le_two (by decide)
    · rw [← pow_succ]
      exact pow_le_pow_right₀ one_le_two (by decide)

/-- The number 10⁴⁰⁰ is too large for 64 bits. -/
theorem range_of_pow_400 : (2 : ℚ) ^ 1024 - 2 ^ 970 ≤ 10 ^ 400 := by
  have hpos : (0 : ℚ) < 2 ^ 970 := by positivity
  have hpow : (2 : ℚ) ^ 1024 ≤ 10 ^ 400 := by
    have hcast : ∀ {m n : Nat}, 2 ^ m ≤ 10 ^ n → (2 : ℚ) ^ m ≤ 10 ^ n := by
      intro m n h
      exact_mod_cast h
    exact hcast (by decide +kernel)
  exact (sub_le_self _ hpos.le).trans hpow

/-- What a floating-point kind takes is finite, unless it is a string that spells infinity or
not-a-number, or a numeral that is too large for 64 bits. A number, or a string that spells a
numeral, is taken, unless the kind has 32 bits and the number is too large for them but not for 64
bits; then it is refused as out of range. -/
theorem readScalar_isFinite {kind : Scalar} (hkind : kind = .double ∨ kind = .float) {json : Json}
    (hjson : json.Finite) :
    (∀ v, readScalar kind json = .ok v → v.isFinite = false → ∃ s, json = .string s ∧
      ((∃ negative, AfterSign SpellsSpecial negative (Text.trim s.toList)) ∨
        ∃ q, json.HasMagnitude q ∧ 2 ^ 1024 - 2 ^ 970 ≤ q)) ∧
    ∀ q, json.HasMagnitude q →
      if kind = .float ∧ 2 ^ 128 - 2 ^ 104 + 2 ^ 74 < q ∧ q < 2 ^ 1024 - 2 ^ 970 then
        ∃ word, readScalar kind json = .error (.floatRange word)
      else ∃ v, readScalar kind json = .ok v ∧ (v.isFinite = true ↔ q < 2 ^ 1024 - 2 ^ 970) := by
  constructor
  · intro v hv hinfinite
    rcases hkind with rfl | rfl
    · obtain ⟨word, hword, rfl⟩ := except_map_eq_ok.1 hv
      exact exists_string_of_not_isFinite hjson hword hinfinite
    · obtain ⟨word, hword, hv⟩ := except_bind_eq_ok.1 hv
      obtain ⟨single, hsingle, hv⟩ := except_bind_eq_ok.1 hv
      cases hv
      refine exists_string_of_not_isFinite hjson hword (Bool.not_eq_true _ ▸ fun hfinite => ?_)
      rw [Value.isFinite, isFinite_of_singleOfDouble hsingle hfinite] at hinfinite
      cases hinfinite
  · intro q hq
    rcases hkind with rfl | rfl
    · obtain ⟨word, hword, hfinite⟩ := readScalar_double_of_magnitude hq
      rw [if_neg (by simp)]
      exact ⟨.f64 word, hword, hfinite⟩
    · have hread := readScalar_float_of_magnitude hq
      simp only [true_and]
      split at hread
      · rename_i hrange
        rw [if_pos hrange]
        exact hread
      · rename_i hrange
        obtain ⟨word, hword, hfinite⟩ := hread
        rw [if_neg hrange]
        exact ⟨.f32 word, hword, hfinite⟩

/-- A numeral that is too large for 32 bits is refused. -/
theorem readScalar_isFinite_large :
    (Scalar.float = .double ∨ Scalar.float = .float) ∧ (Json.string " 1e39 ").Finite ∧
      (Json.string " 1e39 ").HasMagnitude (10 ^ 39) ∧
      ∃ word, readScalar .float (.string " 1e39 ") = .error (.floatRange word) := by
  have hmagnitude : (Json.string " 1e39 ").HasMagnitude (10 ^ 39) :=
    hasMagnitude_pow ['3', '9'] (by decide) (by decide) (by decide) (by decide)
  have hjson : (Json.string " 1e39 ").Finite := trivial
  have hread := (readScalar_isFinite (.inr rfl) hjson).2 _ hmagnitude
  rw [if_pos ⟨rfl, range_of_pow_39⟩] at hread
  exact ⟨.inr rfl, hjson, hmagnitude, hread⟩

/-- A numeral that is too large for 64 bits is taken for infinity by either kind, although a lesser
one is refused. -/
theorem not_isFinite_overflow :
    (∃ word, readScalar .float (.string "1e39") = .error (.floatRange word)) ∧
      (∃ word, readScalar .double (.string "1e400") = .ok (.f64 word) ∧
        (Value.f64 word).isFinite = false) ∧
      ∃ word, readScalar .float (.string "1e400") = .ok (.f32 word) ∧
        (Value.f32 word).isFinite = false := by
  have hlarge : (Json.string "1e39").HasMagnitude (10 ^ 39) :=
    hasMagnitude_pow ['3', '9'] (by decide) (by decide) (by decide) (by decide)
  have hoverflow : (Json.string "1e400").HasMagnitude (10 ^ 400) :=
    hasMagnitude_pow ['4', '0', '0'] (by decide) (by decide) (by decide) (by decide)
  have hinfinite : ¬ (10 : ℚ) ^ 400 < 2 ^ 1024 - 2 ^ 970 := not_lt.2 range_of_pow_400
  refine ⟨?_, ?_, ?_⟩
  · have hread := readScalar_float_of_magnitude hlarge
    rwa [if_pos range_of_pow_39] at hread
  · obtain ⟨word, hword, hfinite⟩ := readScalar_double_of_magnitude hoverflow
    exact ⟨word, hword, Bool.eq_false_iff.2 (hfinite.not.2 hinfinite)⟩
  · have hread := readScalar_float_of_magnitude hoverflow
    rw [if_neg fun h => hinfinite h.2] at hread
    obtain ⟨word, hword, hfinite⟩ := hread
    exact ⟨word, hword, Bool.eq_false_iff.2 (hfinite.not.2 hinfinite)⟩

end Plain

end DynProto
