import DynProto.Plain.Conversion
import DynProto.Proofs.Number.Integral

/-!
# Numbers as integers of 64 bits

A number that is not held as an integer of the right sign is taken for the integer that the nearest
floating-point number stands for, between bounds that are rounded as well. Neither rounding does any
harm (`wideOfNumber?_eq`): what is held as an integer and does not fit lies beyond the bounds when
it is rounded, since rounding keeps the order of integers, and the upper bound is rounded to the
first power of two that does not fit, which is left out.
-/

namespace DynProto

open DynProto.Number (Format)

namespace Plain

/-- An integer fits 64 bits exactly if it lies between the bounds. -/
theorem fitsWide_iff {signed : Bool} {n : Int} :
    fitsWide signed n = true ↔ leastWide signed ≤ n ∧ n ≤ greatestWide signed := by
  cases signed
  · have hsize : (UInt64.size : Int) = 2 ^ 64 := rfl
    simp only [fitsWide, leastWide, greatestWide, Bool.false_eq_true, if_false, Bool.and_eq_true,
      decide_eq_true_eq]
    omega
  · simp only [fitsWide, leastWide, greatestWide, if_true, Bool.and_eq_true, decide_eq_true_eq]

/-- The lower bound is not changed by rounding. -/
theorem signedUnits_leastWide (signed : Bool) :
    Format.double.signedUnits (Format.double.ofInt (leastWide signed))
      = leastWide signed * 2 ^ Format.double.scale := by
  revert signed
  decide +kernel

/-- The upper bound is rounded to the first integer beyond it. -/
theorem signedUnits_greatestWide (signed : Bool) :
    Format.double.signedUnits (Format.double.ofInt (greatestWide signed))
      = (greatestWide signed + 1) * 2 ^ Format.double.scale := by
  revert signed
  decide +kernel

/-- A floating-point number without a fraction lies between the rounded bounds exactly if its
integer fits. -/
theorem isWideIntegral_iff (signed : Bool) (word : UInt64) :
    isWideIntegral signed word = true ↔ Format.double.isIntegral word.toNat = true ∧
      fitsWide signed (Format.double.truncate word.toNat) = true := by
  have hpos : (0 : Int) < 2 ^ Format.double.scale := by positivity
  unfold isWideIntegral Format.atMost
  rw [Bool.and_eq_true, Bool.and_eq_true, and_assoc, fitsWide_iff]
  refine and_congr_right fun hintegral => ?_
  rw [signedUnits_leastWide, signedUnits_greatestWide, Format.signedUnits_of_isIntegral _ hintegral]
  simp only [Bool.not_eq_true', decide_eq_true_eq, decide_eq_false_iff_not, not_le,
    mul_le_mul_iff_of_pos_right hpos, Int.lt_add_one_iff]

/-- An integer that fits is not changed by cutting it down. -/
theorem cutWide_of_fits {signed : Bool} {word : UInt64}
    (h : fitsWide signed (Format.double.truncate word.toNat) = true) :
    cutWide signed word = Format.double.truncate word.toNat := by
  obtain ⟨hleast, hgreatest⟩ := fitsWide_iff.1 h
  rw [cutWide, min_eq_right hgreatest, max_eq_right hleast]

/-- The word of a rounded integer has 64 bits. -/
theorem toNat_ofInt (n : Int) :
    (Format.double.ofInt n).toUInt64.toNat = Format.double.ofInt n :=
  Format.toNat_signed_double _ (Format.ofRatio_lt_signBit _ _ _)

/-- An integer beyond the greatest one is rounded beyond the upper bound. -/
theorem isWideIntegral_of_greatest {signed : Bool} {n : Int} (h : greatestWide signed ≤ n) :
    isWideIntegral signed (Format.double.ofInt n).toUInt64 = false := by
  have hle := Format.double.signedUnits_ofInt_le (by decide) h
  rw [isWideIntegral, toNat_ofInt, Format.atMost, Format.atMost, decide_eq_true hle]
  simp

/-- A negative integer is rounded below zero. -/
theorem isWideIntegral_of_neg {n : Int} (h : n < 0) :
    isWideIntegral false (Format.double.ofInt n).toUInt64 = false := by
  have hle := Format.double.signedUnits_ofInt_le (by decide) (show n ≤ -1 by omega)
  have hneg : Format.double.signedUnits (Format.double.ofInt (-1)) < 0 := by decide +kernel
  have hzero : Format.double.signedUnits (Format.double.ofInt (leastWide false)) = 0 := by
    decide +kernel
  rw [isWideIntegral, toNat_ofInt, Format.atMost, hzero, decide_eq_false (by omega)]
  simp

/-- A number is taken for the integer that it stands for, if this fits 64 bits, and for nothing
otherwise. -/
theorem wideOfNumber?_eq (signed : Bool) (n : Json.Number) :
    wideOfNumber? signed n = n.toInt?.filter (fitsWide signed) := by
  cases n with
  | natural n =>
    by_cases hfits : fitsWide signed n.toNat = true
    · simp [wideOfNumber?, Json.Number.held?, Json.Number.toInt?, Option.filter, hfits]
    · have hbeyond : greatestWide signed ≤ n.toNat := by
        have hleast : leastWide signed ≤ 0 := by cases signed <;> decide
        rw [fitsWide_iff] at hfits
        omega
      simp [wideOfNumber?, Json.Number.held?, Json.Number.toInt?, Json.Number.toDouble,
        Option.filter, hfits, isWideIntegral_of_greatest hbeyond]
  | negative n =>
    by_cases hfits : fitsWide signed n.toInt = true
    · simp [wideOfNumber?, Json.Number.held?, Json.Number.toInt?, Option.filter, hfits]
    · have hsign : signed = false ∧ n.toInt < 0 := by
        have hleast : Int64.minValue.toInt ≤ n.toInt := n.minValue_le_toInt
        have hgreatest : n.toInt ≤ Int64.maxValue.toInt := n.toInt_le
        have hbound : Int64.maxValue.toInt ≤ greatestWide false := by decide
        rw [fitsWide_iff] at hfits
        cases signed
        · exact ⟨rfl, Int.not_le.1 fun hpos => hfits ⟨hpos, Int.le_trans hgreatest hbound⟩⟩
        · exact absurd ⟨hleast, hgreatest⟩ hfits
      obtain ⟨rfl, hneg⟩ := hsign
      simp [wideOfNumber?, Json.Number.held?, Json.Number.toInt?, Json.Number.toDouble,
        Option.filter, hfits, isWideIntegral_of_neg hneg]
  | double word =>
    simp only [wideOfNumber?, Json.Number.held?, Json.Number.toInt?, Json.Number.toDouble,
      Option.filter_none, Option.none_or, Format.integer?_eq]
    by_cases hwide : isWideIntegral signed word = true
    · obtain ⟨hintegral, hfits⟩ := (isWideIntegral_iff signed word).1 hwide
      simp [Option.filter, hwide, hintegral, hfits, cutWide_of_fits hfits]
    · have hnot := (isWideIntegral_iff signed word).not.1 hwide
      by_cases hintegral : Format.double.isIntegral word.toNat = true
      · simp [Option.filter, hwide, hintegral, not_and.1 hnot hintegral]
      · simp [Option.filter, hwide, hintegral]

end Plain

end DynProto
