import DynProto.Proofs.Number.Rounding

/-!
# Integers among floating-point numbers

The value of a finite word is a rational number (`Format.value`). A word stands for an integer
exactly if its value is one (`integer?_eq_some_iff`), and cutting off the fraction of such a word
gives that integer (`signedUnits_of_isIntegral`). Rounding integers to words keeps their order
(`signedUnits_ofInt_le`), although integers beyond the significand are not kept themselves.
-/

namespace DynProto.Number.Format

variable (f : Format)

/-- The number that a finite word stands for. -/
def value (word : Nat) : ℚ :=
  f.signedUnits word / 2 ^ f.scale

/-- The magnitude that stands for infinity leaves the sign bit free. -/
theorem infinity_lt_signBit : f.infinity < f.signBit := by
  unfold infinity signBit fractionSize
  rw [Nat.pow_eq, Nat.pow_eq, Nat.pow_eq, Nat.pow_add, Nat.mul_comm (2 ^ f.fractionBits)]
  exact Nat.mul_lt_mul_of_pos_right (Nat.sub_one_lt (Nat.two_pow_pos _).ne') (Nat.two_pow_pos _)

/-- The value of a signed magnitude. -/
theorem signedUnits_signed (negative : Bool) {m : Nat} (h : m < f.signBit) :
    f.signedUnits (f.signed negative m) = if negative then -(f.units m : Int) else f.units m := by
  unfold signedUnits
  rw [f.magnitude_signed negative h, f.isNegative_signed negative h]
  rfl

/-- The number of a signed magnitude. -/
theorem value_signed (negative : Bool) {m : Nat} (h : m < f.signBit) :
    f.value (f.signed negative m)
      = if negative then -(f.units m / 2 ^ f.scale : ℚ) else f.units m / 2 ^ f.scale := by
  rw [value, f.signedUnits_signed negative h]
  cases negative
  · simp
  · simp [neg_div]

/-- The magnitude of the value of a word is that of the word. -/
theorem abs_value (word : Nat) :
    |f.value word| = f.units (f.magnitude word) / 2 ^ f.scale := by
  have habs : |(f.signedUnits word : ℚ)| = f.units (f.magnitude word) := by
    unfold signedUnits
    simp only
    split <;> simp
  rw [value, abs_div, habs, abs_of_pos (by positivity)]

/-- A ratio is rounded to a magnitude that leaves the sign bit free. -/
theorem ofRatio_lt_signBit (num den : Nat) : f.ofRatio num den < f.signBit :=
  Nat.lt_of_le_of_lt (f.nearest_le_infinity _ _) f.infinity_lt_signBit

/-- Rounding integers keeps their order. -/
theorem signedUnits_ofInt_le (hbits : 0 < f.fractionBits) {a b : Int} (h : a ≤ b) :
    f.signedUnits (f.ofInt a) ≤ f.signedUnits (f.ofInt b) := by
  have hunits : ∀ {a b : Nat}, a ≤ b → f.units (f.ofRatio a 1) ≤ f.units (f.ofRatio b 1) :=
    fun h => f.units_le_units (f.ofRatio_le_ofRatio hbits Nat.one_pos Nat.one_pos (by omega))
  unfold ofInt
  rw [f.signedUnits_signed _ (f.ofRatio_lt_signBit _ _),
    f.signedUnits_signed _ (f.ofRatio_lt_signBit _ _)]
  simp only [decide_eq_true_eq]
  rcases Int.lt_or_le a 0 with ha | ha <;> rcases Int.lt_or_le b 0 with hb | hb
  · have hle := hunits (show b.natAbs ≤ a.natAbs by omega)
    rw [if_pos ha, if_pos hb]
    omega
  · rw [if_pos ha, if_neg (by omega)]
    omega
  · omega
  · have hle := hunits (show a.natAbs ≤ b.natAbs by omega)
    rw [if_neg (by omega), if_neg (by omega)]
    omega

/-- The word of a signed magnitude of 64 bits has 64 bits. -/
theorem toNat_signed_double (negative : Bool) {m : Nat} (h : m < double.signBit) :
    (double.signed negative m).toUInt64.toNat = double.signed negative m := by
  rw [Nat.toUInt64_eq, UInt64.toNat_ofNat']
  exact Nat.mod_eq_of_lt (double.signed_lt negative h)

/-- The word of a signed magnitude of 32 bits has 32 bits. -/
theorem toNat_signed_single (negative : Bool) {m : Nat} (h : m < single.signBit) :
    (single.signed negative m).toUInt32.toNat = single.signed negative m := by
  rw [Nat.toUInt32_eq, UInt32.toNat_ofNat']
  exact Nat.mod_eq_of_lt (single.signed_lt negative h)

/-! ## Words without a fraction -/

/-- The integer that a word without a fraction is cut down to is its value. -/
theorem signedUnits_of_isIntegral {word : Nat} (h : f.isIntegral word = true) :
    f.signedUnits word = f.truncate word * 2 ^ f.scale := by
  simp only [isIntegral, Bool.and_eq_true, beq_iff_eq, Nat.pow_eq] at h
  have hunits := Nat.div_mul_cancel (Nat.dvd_of_mod_eq_zero h.2)
  unfold signedUnits truncate
  simp only [Nat.pow_eq]
  split
  · rw [Int.neg_mul]
    exact congrArg Neg.neg (congrArg Int.ofNat hunits.symm)
  · exact congrArg Int.ofNat hunits.symm

/-- A finite word whose value is an integer has no fraction. -/
theorem isIntegral_of_signedUnits {word : Nat} (hfinite : f.isFinite word = true) {n : Int}
    (h : f.signedUnits word = n * 2 ^ f.scale) : f.isIntegral word = true := by
  have hdvd : ((2 ^ f.scale : Nat) : Int) ∣ f.units (f.magnitude word) := by
    have hdvd : ((2 ^ f.scale : Nat) : Int) ∣ f.signedUnits word := by
      rw [h, Nat.cast_pow]
      exact Int.dvd_mul_left _ _
    unfold signedUnits at hdvd
    split at hdvd
    · exact (Int.dvd_neg.1 hdvd)
    · exact hdvd
  simp only [isIntegral, hfinite, Bool.true_and, beq_iff_eq, Nat.pow_eq]
  exact Nat.mod_eq_zero_of_dvd (Int.natCast_dvd_natCast.1 hdvd)

/-- The integer that a word stands for is what it is cut down to. -/
theorem integer?_eq (word : Nat) :
    f.integer? word = if f.isIntegral word then some (f.truncate word) else none :=
  rfl

/-- A finite word stands for an integer exactly if the integer is its value. -/
theorem integer?_eq_some_iff {word : Nat} (hfinite : f.isFinite word = true) (n : Int) :
    f.integer? word = some n ↔ f.value word = n := by
  have hpos : (2 : ℚ) ^ f.scale ≠ 0 := pow_ne_zero _ two_ne_zero
  have hvalue : f.value word = n ↔ f.signedUnits word = n * 2 ^ f.scale := by
    rw [value, div_eq_iff hpos]
    exact_mod_cast Iff.rfl
  rw [hvalue, integer?_eq]
  constructor
  · intro h
    split at h
    · rename_i hintegral
      rw [f.signedUnits_of_isIntegral hintegral, Option.some.inj h]
    · cases h
  · intro h
    have hintegral := f.isIntegral_of_signedUnits hfinite h
    rw [if_pos hintegral]
    rw [f.signedUnits_of_isIntegral hintegral] at h
    exact congrArg some (Int.eq_of_mul_eq_mul_right (by positivity) h)

end DynProto.Number.Format
