import DynProto.Number.Scaling
import DynProto.Proofs.Number.Spelling

/-!
# Numerals that are read exactly by scaling

Reading a numeral by scaling rounds its digits, the power of ten, and their product or quotient. If
the digits make a number below 2⁵³ and the exponent of the power is at most 22, the first two are
values of magnitudes, and only the last step rounds. What is read is then the magnitude nearest to
the numeral (`Numeral.nearest_scaled`), as where all of its digits are taken into account
(`Numeral.scaled_eq_magnitude`).
-/

namespace DynProto.Number

/-! ## Digits that fit 64 bits -/

/-- With digits behind it a number is not less. -/
theorem le_foldl_digits (n : Nat) (cs : List Char) :
    n ≤ cs.foldl (fun n c => 10 * n + Text.digitValue c) n := by
  induction cs generalizing n with
  | nil => exact Nat.le_refl n
  | cons c rest ih =>
    have hrest := ih (10 * n + Text.digitValue c)
    rw [List.foldl_cons]
    omega

/-- If the number that stands for all digits fits 64 bits, all of them are taken. -/
theorem leading_of_lt {n : Nat} {cs : List Char}
    (h : cs.foldl (fun n c => 10 * n + Text.digitValue c) n < UInt64.size) :
    leading n cs = (cs.foldl (fun n c => 10 * n + Text.digitValue c) n, []) := by
  induction cs generalizing n with
  | nil => rfl
  | cons c rest ih =>
    rw [List.foldl_cons] at h
    rw [leading, if_pos (Nat.lt_of_le_of_lt (le_foldl_digits _ rest) h)]
    exact ih h

/-! ## Values of magnitudes -/

namespace Format

/-- A number whose binary digits fit the fraction is the value of the magnitude nearest to it. -/
theorem units_ofRatio {a b : Nat} (hpos : 0 < a) (ha : a < 2 ^ 53) (hb : b ≤ 22) :
    double.units (double.ofRatio (a * 2 ^ b) 1) = a * 2 ^ b * 2 ^ double.scale := by
  have hbits : double.fractionBits ≤ b + double.scale :=
    Nat.le_trans (by decide) (Nat.le_add_left double.scale b)
  obtain ⟨m, hunits, hlt⟩ := double.exists_units hpos ha hbits
  have hfinite : m < double.infinity := by
    refine Nat.lt_of_lt_of_le hlt (Nat.mul_le_mul_right _ ?_)
    have hscale : double.scale = 1074 := by decide
    have hexponents : Nat.pow 2 double.exponentBits - 1 = 2047 := by decide
    omega
  rw [ofRatio, Nat.pow_eq, Nat.mul_assoc, ← Nat.pow_add, ← hunits]
  have hnearest := double.nearest_units hfinite Nat.one_pos
  rw [Nat.mul_one] at hnearest
  rw [hnearest]

/-- The powers of ten up to the twenty-second are values of magnitudes. -/
theorem units_powerOfTen {k : Nat} (h : k ≤ 22) :
    double.units (double.powerOfTen k) = 10 ^ k * 2 ^ double.scale := by
  have hfive : 5 ^ k < 2 ^ 53 :=
    Nat.lt_of_le_of_lt (Nat.pow_le_pow_right (by decide) h) (by decide)
  have hten : 10 ^ k = 5 ^ k * 2 ^ k := by rw [← Nat.mul_pow]
  rw [powerOfTen, Nat.pow_eq, hten]
  exact units_ofRatio (Nat.pow_pos (by decide)) hfive h

variable {a b p q : Nat}

/-- The product of two numbers is rounded once. -/
theorem nearest_mul (ha : double.units a = p * 2 ^ double.scale)
    (hb : double.units b = q * 2 ^ double.scale) : double.Nearest (double.mul a b) (p * q) := by
  have hpos : 0 < Nat.pow 2 double.scale := by
    rw [Nat.pow_eq]
    positivity
  have hvalue : ((double.units a * double.units b : Nat) : ℚ)
      / (Nat.pow 2 double.scale * Nat.pow 2 double.scale : Nat) = p * q := by
    rw [ha, hb, Nat.pow_eq]
    push_cast
    field_simp
  rw [← hvalue]
  exact nearest_ofRatio _ (Nat.mul_pos hpos hpos)

/-- The quotient of two numbers is rounded once. -/
theorem nearest_div (ha : double.units a = p * 2 ^ double.scale)
    (hb : double.units b = q * 2 ^ double.scale) (hq : 0 < q) :
    double.Nearest (double.div a b) (p / q) := by
  have hvalue : (double.units a : ℚ) / double.units b = p / q := by
    rw [ha, hb]
    push_cast
    field_simp
  rw [← hvalue]
  exact nearest_ofRatio _ (by rw [hb]; exact Nat.mul_pos hq (Nat.two_pow_pos _))

end Format

open Format

/-! ## Scaling -/

/-- A number below 2⁵³ times a power of ten that is the value of a magnitude is rounded once. -/
theorem nearest_scaleByTen {significand : Nat} {exponent : Int} (h : significand < 2 ^ 53)
    (hexponent : exponent.natAbs ≤ 22) :
    double.Nearest (scaleByTen (double.ofRatio significand 1) exponent)
      (significand * 10 ^ exponent) := by
  rcases Nat.eq_zero_or_pos significand with rfl | hpos
  · have hzero : double.ofRatio 0 1 = 0 := by decide +kernel
    have hself := double.nearest_self (show 0 < double.infinity by decide)
    rw [show double.units 0 = 0 from rfl, Nat.cast_zero, zero_div] at hself
    rwa [hzero, scaleByTen, if_pos rfl, Nat.cast_zero, zero_mul]
  have hunits : double.units (double.ofRatio significand 1) = significand * 2 ^ double.scale := by
    simpa using units_ofRatio hpos h (Nat.zero_le 22)
  have hne : double.ofRatio significand 1 ≠ 0 := by
    intro hzero
    rw [hzero, show double.units 0 = 0 from rfl] at hunits
    exact Nat.ne_of_lt (Nat.mul_pos hpos (Nat.two_pow_pos _)) hunits
  rw [scaleByTen, if_neg hne, if_neg (by unfold maxPower; omega)]
  have hpower := units_powerOfTen hexponent
  split
  · rename_i hneg
    have hvalue : (10 : ℚ) ^ exponent = ((10 ^ exponent.natAbs : Nat) : ℚ)⁻¹ := by
      obtain ⟨k, hk⟩ := Int.exists_eq_neg_ofNat (Int.le_of_lt hneg)
      rw [hk]
      simp
    rw [hvalue, ← div_eq_mul_inv]
    exact nearest_div hunits hpower (Nat.pow_pos (by decide))
  · rename_i hnonneg
    have hvalue : (10 : ℚ) ^ exponent = (10 ^ exponent.natAbs : Nat) := by
      obtain ⟨k, hk⟩ := Int.eq_ofNat_of_zero_le (Int.not_lt.1 hnonneg)
      rw [hk]
      simp
    rw [hvalue, if_pos (by unfold maxPower; omega)]
    exact nearest_mul hunits hpower

/-- A numeral with digits that make less than 2⁵³ and with a power of ten of at most the
twenty-second in size is read by scaling as the magnitude nearest to it. -/
theorem Numeral.nearest_scaled (n : Numeral)
    (hdigits : Text.digitsValue (n.whole ++ n.fraction) < 2 ^ 53)
    (hexponent : (n.exponent - n.fraction.length).natAbs ≤ 22) :
    double.Nearest n.scaled n.value := by
  have hvalue : Text.digitsValue (n.whole ++ n.fraction)
      = n.fraction.foldl (fun n c => 10 * n + Text.digitValue c) (Text.digitsValue n.whole) :=
    List.foldl_append
  have hfits : Text.digitsValue (n.whole ++ n.fraction) < UInt64.size :=
    Nat.lt_trans hdigits (by decide)
  rw [hvalue] at hfits
  have hwhole : leading 0 n.whole = (Text.digitsValue n.whole, []) :=
    leading_of_lt (Nat.lt_of_le_of_lt (le_foldl_digits _ n.fraction) hfits)
  have hfraction := leading_of_lt hfits
  rw [← hvalue] at hfraction
  rw [scaled, hwhole]
  simp only [hfraction, List.length_nil, Nat.sub_zero, Int.natCast_zero, Int.add_zero]
  exact nearest_scaleByTen hdigits hexponent

/-- Such a numeral is read by scaling as it is read exactly. -/
theorem Numeral.scaled_eq_magnitude (n : Numeral)
    (hdigits : Text.digitsValue (n.whole ++ n.fraction) < 2 ^ 53)
    (hexponent : (n.exponent - n.fraction.length).natAbs ≤ 22) :
    n.scaled = n.magnitude .double :=
  Nearest.eq double (n.nearest_scaled hdigits hexponent) n.nearest_magnitude

/-- The next power of ten is rounded, and the quotient once more. -/
example : (⟨['1'], [], -23⟩ : Numeral).scaled
    = (⟨['1'], [], -23⟩ : Numeral).magnitude .double + 1 := by decide +kernel

end DynProto.Number
