import DynProto.Proofs.Number.Exact

/-!
# Numbers that need rounding

A quotient is rounded beyond a magnitude exactly if it lies beyond the middle between this magnitude
and the next one, or in the middle where the magnitude is odd (`lt_nearest_iff`). Everything else
about rounding follows from where these middles are: it keeps the order of quotients
(`nearest_le_nearest`), it leaves finite magnitudes as they are, and it overflows from the middle
beyond the greatest finite magnitude on.
-/

namespace DynProto.Number

/-- A quotient is rounded beyond an integer exactly if it lies beyond the middle between this
integer and the next one, or in the middle where the integer is odd. -/
theorem lt_roundHalfEven_iff (num : Nat) {den : Nat} (hden : 0 < den) (k : Nat) :
    k < roundHalfEven num den ↔
      (2 * k + 1) * den < 2 * num ∨ (2 * k + 1) * den = 2 * num ∧ k % 2 = 1 := by
  have hnum := Nat.div_add_mod num den
  have hmod := Nat.mod_lt num hden
  unfold roundHalfEven
  simp only
  generalize num / den = quotient at hnum
  generalize num % den = remainder at hnum hmod
  subst hnum
  rw [Nat.mul_comm den]
  rcases Nat.lt_trichotomy k quotient with hlt | rfl | hgt
  · have hle : (2 * k + 2) * den ≤ 2 * quotient * den := Nat.mul_le_mul_right den (by omega)
    simp only [Nat.add_mul, Nat.mul_assoc, Nat.one_mul] at hle ⊢
    split_ifs <;> omega
  · simp only [Nat.add_mul, Nat.mul_assoc, Nat.one_mul]
    split_ifs <;> omega
  · have hle : (2 * quotient + 2) * den ≤ 2 * k * den := Nat.mul_le_mul_right den (by omega)
    simp only [Nat.add_mul, Nat.mul_assoc, Nat.one_mul] at hle ⊢
    split_ifs <;> omega

namespace Format

variable (f : Format)

/-- The magnitudes with one step between them have multiples of that step for their values. -/
theorem units_grid {shift k : Nat} (hlo : shift = 0 ∨ f.fractionSize ≤ k)
    (hhi : k ≤ 2 * f.fractionSize) : f.units (shift * f.fractionSize + k) = k * 2 ^ shift := by
  rcases Nat.lt_or_eq_of_le hhi with hlt | rfl
  · rcases Nat.lt_or_ge k f.fractionSize with hsmall | hlarge
    · obtain rfl : shift = 0 := by omega
      rw [Nat.zero_mul, Nat.zero_add, f.units_of_lt hsmall, Nat.pow_zero, Nat.mul_one]
    · exact f.units_add shift hlarge hlt
  · -- the first magnitude with twice the step
    have hpos := f.fractionSize_pos
    have hnext := f.units_add (shift + 1) (Nat.le_refl _) (by omega)
    rw [Nat.add_mul, Nat.one_mul, Nat.pow_succ] at hnext
    rw [Nat.two_mul, ← Nat.add_assoc, hnext, Nat.mul_comm (2 ^ shift) 2, ← Nat.mul_assoc]
    congr 1
    omega

/-- The size of a quotient says how long the step of the magnitudes around it is. -/
theorem shift_bounds (quotient : Nat) :
    quotient < 2 * f.fractionSize * 2 ^ (quotient.log2 - f.fractionBits) ∧
      (quotient.log2 - f.fractionBits = 0 ∨
        f.fractionSize * 2 ^ (quotient.log2 - f.fractionBits) ≤ quotient) := by
  have hsize : f.fractionSize = 2 ^ f.fractionBits := rfl
  constructor
  · calc quotient < 2 ^ (quotient.log2 + 1) := Nat.lt_log2_self
      _ ≤ 2 ^ (f.fractionBits + 1 + (quotient.log2 - f.fractionBits)) :=
          Nat.pow_le_pow_right (by decide) (by omega)
      _ = 2 * f.fractionSize * 2 ^ (quotient.log2 - f.fractionBits) := by
          rw [hsize, Nat.pow_add, Nat.pow_succ, Nat.mul_comm (2 ^ f.fractionBits) 2]
  · rcases Nat.lt_or_ge f.fractionBits quotient.log2 with hlt | hge
    · right
      have hne : quotient ≠ 0 := by
        rintro rfl
        simp at hlt
      calc f.fractionSize * 2 ^ (quotient.log2 - f.fractionBits)
            = 2 ^ quotient.log2 := by
              rw [hsize, ← Nat.pow_add, Nat.add_sub_of_le (Nat.le_of_lt hlt)]
        _ ≤ quotient := Nat.log2_self_le hne
    · exact .inl (Nat.sub_eq_zero_of_le hge)

/-- Whether a magnitude is odd does not depend on its exponent. -/
theorem mod_two_of_grid (hbits : 0 < f.fractionBits) (shift k : Nat) :
    (shift * f.fractionSize + k) % 2 = k % 2 := by
  have hsize : f.fractionSize = 2 * 2 ^ (f.fractionBits - 1) := by
    rw [← Nat.pow_succ', Nat.succ_eq_add_one, Nat.sub_add_cancel hbits]
    rfl
  rw [hsize, ← Nat.mul_assoc, Nat.mul_comm shift 2, Nat.mul_assoc]
  omega

/-- A quotient is rounded beyond a finite magnitude exactly if it lies beyond the middle between
this magnitude and the next one, or in the middle where the magnitude is odd. -/
theorem lt_nearest_iff (hbits : 0 < f.fractionBits) {m num den : Nat} (hfinite : m < f.infinity)
    (hden : 0 < den) :
    m < f.nearest num den ↔
      (f.units m + f.units (m + 1)) * den < 2 * num ∨
        (f.units m + f.units (m + 1)) * den = 2 * num ∧ m % 2 = 1 := by
  obtain ⟨hquotient, hshift⟩ := f.shift_bounds (num / den)
  have hround := lt_roundHalfEven_iff num
    (Nat.mul_pos hden (Nat.two_pow_pos ((num / den).log2 - f.fractionBits)))
  unfold nearest
  simp only [Nat.pow_eq, Nat.lt_min, hfinite, true_and]
  rw [Nat.div_lt_iff_lt_mul hden] at hquotient
  rw [Nat.le_div_iff_mul_le hden] at hshift
  generalize (num / den).log2 - f.fractionBits = shift at *
  generalize roundHalfEven num (den * 2 ^ shift) = rounded at *
  have hnext : f.units m < f.units (m + 1) := f.units_lt_units (Nat.lt_succ_self m)
  -- the quotient lies among the magnitudes that have `2 ^ shift` for their step
  rcases Nat.lt_or_ge m (shift * f.fractionSize + 2 * f.fractionSize) with hlt | hbeyond
  · by_cases hbelow : shift ≠ 0 ∧ m < shift * f.fractionSize + f.fractionSize
    · have hleast := hshift.resolve_left hbelow.1
      have hunits := f.units_le_units (show m + 1 ≤ _ from hbelow.2)
      rw [f.units_grid (.inr (Nat.le_refl _)) (by omega)] at hunits
      refine iff_of_true ?_ (.inl ?_)
      · have hrounded : f.fractionSize - 1 < rounded := by
          refine (hround _).2 (.inl ?_)
          calc (2 * (f.fractionSize - 1) + 1) * (den * 2 ^ shift)
                < 2 * f.fractionSize * (den * 2 ^ shift) :=
                Nat.mul_lt_mul_of_pos_right (by have := f.fractionSize_pos; omega)
                  (Nat.mul_pos hden (Nat.two_pow_pos _))
            _ = 2 * (f.fractionSize * 2 ^ shift * den) := by ring
            _ ≤ 2 * num := Nat.mul_le_mul_left 2 hleast
        omega
      · calc (f.units m + f.units (m + 1)) * den
              < 2 * (f.fractionSize * 2 ^ shift) * den :=
              Nat.mul_lt_mul_of_pos_right (by omega) hden
          _ = 2 * (f.fractionSize * 2 ^ shift * den) := by ring
          _ ≤ 2 * num := Nat.mul_le_mul_left 2 hleast
    · have hgrid : shift = 0 ∨ shift * f.fractionSize + f.fractionSize ≤ m := by omega
      obtain ⟨k, rfl⟩ := Nat.exists_eq_add_of_le (show shift * f.fractionSize ≤ m by
        rcases hgrid with rfl | hge <;> omega)
      have hlo : shift = 0 ∨ f.fractionSize ≤ k := by omega
      have hsum : (k * 2 ^ shift + (k + 1) * 2 ^ shift) * den
          = (2 * k + 1) * (den * 2 ^ shift) := by ring
      rw [f.units_grid hlo (by omega), Nat.add_assoc, f.units_grid (by omega) (by omega), hsum,
        Nat.add_lt_add_iff_left, hround, f.mod_two_of_grid hbits]
  · have hunits := f.units_le_units hbeyond
    rw [f.units_grid (.inr (by omega)) (Nat.le_refl _)] at hunits
    refine iff_of_false ?_ ?_
    · have hrounded : ¬ 2 * f.fractionSize < rounded := by
        have hmiddle : 2 * num < (2 * (2 * f.fractionSize) + 1) * (den * 2 ^ shift) := by
          calc 2 * num < 2 * (2 * f.fractionSize * 2 ^ shift * den) := by omega
            _ = 2 * (2 * f.fractionSize) * (den * 2 ^ shift) := by ring
            _ ≤ _ := Nat.mul_le_mul_right _ (Nat.le_succ _)
        rw [hround]
        omega
      omega
    · have hbig : 2 * num < (f.units m + f.units (m + 1)) * den := by
        calc 2 * num < 2 * (2 * f.fractionSize * 2 ^ shift * den) := by omega
          _ = (2 * f.fractionSize * 2 ^ shift + 2 * f.fractionSize * 2 ^ shift) * den := by ring
          _ ≤ _ := Nat.mul_le_mul_right den (by omega)
      omega

/-- Nothing is rounded beyond infinity. -/
theorem nearest_le_infinity (num den : Nat) : f.nearest num den ≤ f.infinity :=
  Nat.min_le_left _ _

/-- Rounding keeps the order of quotients. -/
theorem nearest_le_nearest (hbits : 0 < f.fractionBits) {num den num' den' : Nat} (hden : 0 < den)
    (hden' : 0 < den') (h : num * den' ≤ num' * den) :
    f.nearest num den ≤ f.nearest num' den' := by
  by_contra hlt
  have hlt : f.nearest num' den' < f.nearest num den := Nat.lt_of_not_le hlt
  have hfinite := Nat.lt_of_lt_of_le hlt (f.nearest_le_infinity num den)
  have hbeyond := (f.lt_nearest_iff hbits hfinite hden).1 hlt
  have hwithin := (f.lt_nearest_iff hbits hfinite hden').not.1 (Nat.lt_irrefl _)
  rw [not_or, not_and, Nat.not_lt] at hwithin
  generalize f.units (f.nearest num' den') + f.units (f.nearest num' den' + 1) = middle at *
  -- twice either quotient is compared with the middle over one denominator
  have hmiddle : middle * den * den' = middle * den' * den := Nat.mul_right_comm _ _ _
  have hscaled : 2 * num * den' ≤ 2 * num' * den := by
    rw [Nat.mul_assoc, Nat.mul_assoc]
    exact Nat.mul_le_mul_left 2 h
  rcases hbeyond with hbeyond | ⟨heq, hodd⟩
  · have hless := Nat.mul_lt_mul_of_pos_right hbeyond hden'
    have hmore := Nat.mul_le_mul_right den hwithin.1
    omega
  · have hne : middle * den' ≠ 2 * num' := fun heq' => hwithin.2 heq' hodd
    have hmore := Nat.mul_lt_mul_of_pos_right (Nat.lt_of_le_of_ne hwithin.1 hne.symm) hden
    rw [← heq] at hscaled
    omega

/-- Rounding keeps the order of ratios. -/
theorem ofRatio_le_ofRatio (hbits : 0 < f.fractionBits) {num den num' den' : Nat} (hden : 0 < den)
    (hden' : 0 < den') (h : num * den' ≤ num' * den) :
    f.ofRatio num den ≤ f.ofRatio num' den' := by
  refine f.nearest_le_nearest hbits hden hden' ?_
  rw [Nat.mul_right_comm, Nat.mul_right_comm num']
  exact Nat.mul_le_mul_right _ h

end Format

end DynProto.Number
