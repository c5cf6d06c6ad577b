import DynProto.Number.Numeral
import DynProto.Proofs.Number.Rounding
import DynProto.Proofs.Text.Decimal

/-!
# Rounding decimal numerals

The middle between a magnitude and the next one is a rational number (`Format.middle`). A decimal
numeral is rounded beyond a magnitude exactly if its value lies beyond that middle, or in the middle
where the magnitude is odd (`lt_decimal_iff`); that numerals far beyond or far below the finite
magnitudes are not computed does not show.
-/

namespace DynProto

open Number (Format)

namespace Number.Format

variable (f : Format)

/-- The number in the middle between a finite magnitude and the next one. -/
def middle (m : Nat) : ℚ :=
  (f.units m + f.units (m + 1)) / 2 / 2 ^ f.scale

/-- The middle beyond a magnitude, where it is a natural number. -/
theorem middle_eq_natCast {m n : Nat}
    (h : f.units m + f.units (m + 1) = 2 * n * 2 ^ f.scale) : f.middle m = n := by
  have h : (f.units m + f.units (m + 1) : ℚ) = 2 * n * 2 ^ f.scale := by exact_mod_cast h
  rw [middle, h, div_div, div_eq_iff (by positivity)]
  ring

/-- Beyond a larger magnitude the middle is larger. -/
theorem middle_le_middle {m n : Nat} (h : m ≤ n) : f.middle m ≤ f.middle n := by
  have hm : (f.units m : ℚ) ≤ f.units n := by exact_mod_cast f.units_le_units h
  have hnext : (f.units (m + 1) : ℚ) ≤ f.units (n + 1) := by
    exact_mod_cast f.units_le_units (Nat.succ_le_succ h)
  unfold middle
  gcongr

/-- A ratio is rounded beyond a finite magnitude exactly if it lies beyond the middle between this
magnitude and the next one, or in the middle where the magnitude is odd. -/
theorem lt_ofRatio_iff (hbits : 0 < f.fractionBits) {m num den : Nat} (hfinite : m < f.infinity)
    (hden : 0 < den) :
    m < f.ofRatio num den ↔
      f.middle m < num / den ∨ f.middle m = num / den ∧ m % 2 = 1 := by
  have hden' : (0 : ℚ) < den := by exact_mod_cast hden
  have hscale : (0 : ℚ) < 2 ^ f.scale := by positivity
  have hlt : f.middle m < num / den
      ↔ (f.units m + f.units (m + 1)) * den < 2 * (num * 2 ^ f.scale) := by
    rw [middle, div_div, div_lt_div_iff₀ (by positivity) hden']
    rw [show (num : ℚ) * (2 * 2 ^ f.scale) = 2 * (num * 2 ^ f.scale) by ring]
    exact_mod_cast Iff.rfl
  have heq : f.middle m = num / den
      ↔ (f.units m + f.units (m + 1)) * den = 2 * (num * 2 ^ f.scale) := by
    rw [middle, div_div, div_eq_div_iff (by positivity) hden'.ne']
    rw [show (num : ℚ) * (2 * 2 ^ f.scale) = 2 * (num * 2 ^ f.scale) by ring]
    exact_mod_cast Iff.rfl
  rw [hlt, heq]
  exact f.lt_nearest_iff hbits hfinite hden

/-- The middles of a format lie within the orders of magnitude that numerals are computed in. -/
structure WithinOrders : Prop where
  /-- There is a fraction. -/
  bits : 0 < f.fractionBits
  /-- Every middle is below the numbers that are taken for infinity. -/
  below : f.middle (f.infinity - 1) < 10 ^ orderBound
  /-- Every middle is above the numbers that are taken for zero. -/
  above : 1 / 10 ^ orderBound ≤ f.middle 0

/-- A decimal numeral is rounded beyond a finite magnitude exactly if it lies beyond the middle
between this magnitude and the next one, or in the middle where the magnitude is odd. -/
theorem lt_decimal_iff (hf : f.WithinOrders) {m : Nat} (hfinite : m < f.infinity) (digits : Nat)
    (exponent : Int) :
    m < f.decimal digits exponent ↔
      f.middle m < digits * 10 ^ exponent ∨
        f.middle m = digits * 10 ^ exponent ∧ m % 2 = 1 := by
  have hten : (10 : ℚ) ≠ 0 := by norm_num
  have hbelow : f.middle m < 10 ^ orderBound :=
    (f.middle_le_middle (Nat.le_sub_one_of_lt hfinite)).trans_lt hf.below
  have habove : 1 / 10 ^ orderBound ≤ f.middle m :=
    hf.above.trans (f.middle_le_middle (Nat.zero_le m))
  have hpos : 0 < f.middle m := lt_of_lt_of_le (by positivity) habove
  unfold decimal
  by_cases hzero : digits = 0
  · subst hzero
    simp only [if_true, Nat.not_lt_zero, Nat.cast_zero, zero_mul, false_iff]
    push Not
    exact ⟨hpos.le, fun heq => absurd heq hpos.ne'⟩
  rw [if_neg hzero]
  -- the value lies between the powers of ten around its order
  have hlower : (10 : ℚ) ^ ((Text.digits digits).length + exponent)
      ≤ digits * 10 ^ exponent * 10 := by
    have hlength := Text.pow_length_digits_le (Nat.pos_of_ne_zero hzero)
    rw [zpow_add₀ hten, zpow_natCast, mul_right_comm]
    gcongr
    exact_mod_cast hlength
  have hupper : digits * (10 : ℚ) ^ exponent
      < 10 ^ ((Text.digits digits).length + exponent) := by
    have hlength := Text.lt_pow_length_digits digits
    rw [zpow_add₀ hten, zpow_natCast]
    gcongr
    exact_mod_cast hlength
  simp only
  generalize ((Text.digits digits).length : Int) + exponent = order at *
  split_ifs with hlarge hsmall
  · -- the value is above every middle
    refine iff_of_true hfinite (.inl ?_)
    have hpow : (10 : ℚ) ^ orderBound * 10 ≤ 10 ^ order := by
      rw [← pow_succ, ← zpow_natCast]
      exact zpow_le_zpow_right₀ (by norm_num) (by push_cast; omega)
    linarith
  · -- the value is below every middle
    refine iff_of_false (Nat.not_lt_zero m) ?_
    have hpow : (10 : ℚ) ^ order ≤ 1 / 10 ^ orderBound := by
      rw [one_div, ← zpow_natCast, ← zpow_neg]
      exact zpow_le_zpow_right₀ (by norm_num) (by omega)
    have hlt : digits * (10 : ℚ) ^ exponent < f.middle m := by linarith
    exact not_or.2 ⟨hlt.not_gt, fun heq => hlt.ne' heq.1⟩
  · cases exponent with
    | ofNat n =>
      have hvalue : ((digits * 10 ^ n : Nat) : ℚ) / (1 : Nat) = digits * 10 ^ (Int.ofNat n) := by
        simp
      rw [← hvalue]
      exact f.lt_ofRatio_iff hf.bits hfinite Nat.one_pos
    | negSucc n =>
      have hvalue : (digits : ℚ) / (10 ^ (n + 1) : Nat) = digits * 10 ^ (Int.negSucc n) := by
        rw [zpow_negSucc, Nat.cast_pow, Nat.cast_ofNat, div_eq_mul_inv]
      rw [← hvalue]
      exact f.lt_ofRatio_iff hf.bits hfinite (Nat.pow_pos (by decide))

/-- The middles between the magnitudes of 64 bits do. -/
theorem withinOrders_double : double.WithinOrders where
  bits := by decide
  below := by
    have h : double.units (double.infinity - 1) + double.units (double.infinity - 1 + 1)
        < 10 ^ orderBound * (2 * 2 ^ double.scale) := by decide +kernel
    rw [middle, div_div, div_lt_iff₀ (by positivity)]
    exact_mod_cast h
  above := by
    have h : 2 * 2 ^ double.scale
        ≤ (double.units 0 + double.units (0 + 1)) * 10 ^ orderBound := by decide +kernel
    rw [middle, div_div, div_le_div_iff₀ (by positivity) (by positivity), one_mul]
    exact_mod_cast h

/-- A natural number is rounded beyond a finite magnitude exactly if it lies beyond the middle
between this magnitude and the next one, or in the middle where the magnitude is odd. -/
theorem lt_decimal_zero_iff (hf : f.WithinOrders) {m k : Nat} (hfinite : m < f.infinity)
    (hk : f.units m + f.units (m + 1) = 2 * k * 2 ^ f.scale) (n : Nat) :
    m < f.decimal n 0 ↔ k < n ∨ k = n ∧ m % 2 = 1 := by
  rw [f.lt_decimal_iff hf hfinite, f.middle_eq_natCast hk, zpow_zero, mul_one, Nat.cast_lt,
    Nat.cast_inj]

/-! ## Nearest magnitudes -/

/-- A decimal numeral is rounded to infinity at most. -/
theorem decimal_le_infinity (digits : Nat) (exponent : Int) :
    f.decimal digits exponent ≤ f.infinity := by
  unfold decimal
  split
  · exact Nat.zero_le _
  simp only
  split_ifs
  · exact Nat.le_refl _
  · exact Nat.zero_le _
  · cases exponent <;> exact f.nearest_le_infinity _ _

/-- A magnitude is nearest to a number, to even in the middle, and infinity where the number lies
beyond the middle after the greatest finite one. -/
structure Nearest (m : Nat) (q : ℚ) : Prop where
  /-- It is infinity at most. -/
  le_infinity : m ≤ f.infinity
  /-- It is beyond a finite magnitude exactly if the number is beyond the middle after this one, or
  in the middle where this one is odd. -/
  lt_iff : ∀ k < f.infinity, k < m ↔ f.middle k < q ∨ f.middle k = q ∧ k % 2 = 1

/-- A ratio is rounded to the nearest magnitude. -/
theorem nearest_ofRatio (num : Nat) {den : Nat} (hden : 0 < den) :
    double.Nearest (double.ofRatio num den) (num / den) where
  le_infinity := double.nearest_le_infinity _ _
  lt_iff _ hk := double.lt_ofRatio_iff (by decide) hk hden

/-- Only one magnitude is nearest to a number. -/
theorem Nearest.eq {m n : Nat} {q : ℚ} (hm : f.Nearest m q) (hn : f.Nearest n q) : m = n := by
  rcases Nat.lt_trichotomy m n with hlt | heq | hgt
  · have hfinite := Nat.lt_of_lt_of_le hlt hn.le_infinity
    exact absurd ((hm.lt_iff m hfinite).2 ((hn.lt_iff m hfinite).1 hlt)) (Nat.lt_irrefl m)
  · exact heq
  · have hfinite := Nat.lt_of_lt_of_le hgt hm.le_infinity
    exact absurd ((hn.lt_iff n hfinite).2 ((hm.lt_iff n hfinite).1 hgt)) (Nat.lt_irrefl n)

/-- A finite magnitude is nearest to itself. -/
theorem nearest_self {m : Nat} (h : m < f.infinity) :
    f.Nearest m (f.units m / 2 ^ f.scale) where
  le_infinity := Nat.le_of_lt h
  lt_iff k _ := by
    have hscale : (0 : ℚ) < 2 ^ f.scale := by positivity
    have hstep : (f.units k : ℚ) < f.units (k + 1) := by
      exact_mod_cast f.units_lt_units (Nat.lt_succ_self k)
    rcases Nat.lt_or_ge k m with hlt | hge
    · have hunits : (f.units (k + 1) : ℚ) ≤ f.units m := by exact_mod_cast f.units_le_units hlt
      refine iff_of_true hlt (.inl ?_)
      unfold middle
      gcongr
      linarith
    · have hunits : (f.units m : ℚ) ≤ f.units k := by exact_mod_cast f.units_le_units hge
      have hmiddle : (f.units m / 2 ^ f.scale : ℚ) < f.middle k := by
        unfold middle
        gcongr
        linarith
      exact iff_of_false (Nat.not_lt.2 hge) (not_or.2 ⟨hmiddle.not_gt, fun h => hmiddle.ne' h.1⟩)

end Number.Format

end DynProto
