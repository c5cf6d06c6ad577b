import DynProto.Number.Format
import Mathlib

/-!
# Numbers that need no rounding

A finite magnitude is the one nearest to its own value (`nearest_units`), and greater magnitudes
have greater values (`units_lt_units`). A 32-bit number is a 64-bit one as well, so widening it is
exact and narrowing gives it back (`narrow_widen`).
-/

namespace DynProto.Number

/-- A multiple of the divisor is not rounded. -/
theorem roundHalfEven_mul (n : Nat) {den : Nat} (h : 0 < den) :
    roundHalfEven (n * den) den = n := by
  unfold roundHalfEven
  rw [Nat.mul_mod_left, Nat.mul_div_cancel n h]
  exact if_pos h

namespace Format

variable (f : Format)

/-- The weight of the fraction field's end is positive. -/
theorem fractionSize_pos : 0 < f.fractionSize :=
  Nat.two_pow_pos f.fractionBits

/-- The value of a magnitude whose exponent field is zero is its fraction. -/
theorem units_of_lt {m : Nat} (h : m < f.fractionSize) : f.units m = m := by
  unfold units
  rw [Nat.div_eq_of_lt h, Nat.mod_eq_of_lt h]
  rfl

/-- The value of a magnitude with an exponent field of `e + 1` and a fraction. -/
theorem units_add (e : Nat) {significand : Nat} (hlo : f.fractionSize ≤ significand)
    (hhi : significand < 2 * f.fractionSize) :
    f.units (e * f.fractionSize + significand) = significand * 2 ^ e := by
  have hpos := f.fractionSize_pos
  have hdiv : (e * f.fractionSize + significand) / f.fractionSize = e + 1 := by
    rw [Nat.add_comm, Nat.add_mul_div_right _ _ hpos, Nat.div_eq_of_lt_le (k := 1) (by omega)
      (by omega)]
    omega
  have hmod : (e * f.fractionSize + significand) % f.fractionSize
      = significand - f.fractionSize := by
    rw [Nat.add_comm, Nat.add_mul_mod_self_right, Nat.mod_eq_sub_mod hlo,
      Nat.mod_eq_of_lt (by omega)]
  unfold units
  simp only [hdiv, hmod, Nat.pow_eq]
  rw [if_neg (by omega), Nat.add_sub_cancel, Nat.add_sub_of_le hlo]

/-- Every magnitude beyond the fraction field has an exponent and a significand. -/
theorem exists_significand {m : Nat} (h : f.fractionSize ≤ m) :
    ∃ e significand, m = e * f.fractionSize + significand ∧ f.fractionSize ≤ significand ∧
      significand < 2 * f.fractionSize := by
  have hpos := f.fractionSize_pos
  have hquotient : 1 ≤ m / f.fractionSize := (Nat.one_le_div_iff hpos).2 h
  have hdiv := Nat.div_add_mod m f.fractionSize
  have hmod := Nat.mod_lt m hpos
  obtain ⟨e, he⟩ := Nat.exists_eq_add_of_le hquotient
  refine ⟨e, f.fractionSize + m % f.fractionSize, ?_, by omega, by omega⟩
  rw [he, Nat.mul_add, Nat.mul_one, Nat.mul_comm f.fractionSize e] at hdiv
  omega

/-- The size of a significand says how far its value is beyond the fraction field. -/
theorem log2_significand {e significand : Nat} (hlo : f.fractionSize ≤ significand)
    (hhi : significand < 2 * f.fractionSize) :
    (significand * 2 ^ e).log2 = f.fractionBits + e := by
  have hpos := f.fractionSize_pos
  have hpow : 0 < 2 ^ e := Nat.two_pow_pos e
  have hsize : f.fractionSize = 2 ^ f.fractionBits := rfl
  rw [hsize] at hlo hhi
  rw [Nat.log2_eq_iff (Nat.ne_of_gt (Nat.mul_pos (by omega) hpow)), Nat.pow_add]
  constructor
  · exact Nat.mul_le_mul_right _ hlo
  · rw [Nat.add_right_comm, Nat.pow_add, Nat.pow_succ, Nat.mul_comm (2 ^ f.fractionBits) 2]
    exact Nat.mul_lt_mul_of_pos_right hhi hpow

/-- A finite magnitude is the one nearest to its own value. -/
theorem nearest_units {m den : Nat} (hfinite : m < f.infinity) (hden : 0 < den) :
    f.nearest (f.units m * den) den = m := by
  have hquotient : f.units m * den / den = f.units m := Nat.mul_div_cancel _ hden
  unfold nearest
  simp only [hquotient, Nat.pow_eq]
  rcases Nat.lt_or_ge m f.fractionSize with hlt | hge
  · rw [f.units_of_lt hlt]
    have hshift : m.log2 - f.fractionBits = 0 := by
      rcases Nat.eq_zero_or_pos m with rfl | hpos
      · exact Nat.zero_sub _
      · have hlog := (Nat.log2_lt (Nat.ne_of_gt hpos)).2 hlt
        omega
    rw [hshift, Nat.pow_zero, Nat.mul_one, roundHalfEven_mul m hden, Nat.zero_mul, Nat.zero_add]
    exact Nat.min_eq_right (Nat.le_of_lt hfinite)
  · obtain ⟨e, significand, rfl, hlo, hhi⟩ := f.exists_significand hge
    have hshift : f.fractionBits + e - f.fractionBits = e := by omega
    rw [f.units_add e hlo hhi, f.log2_significand hlo hhi, hshift, Nat.mul_assoc,
      Nat.mul_comm (2 ^ e) den, roundHalfEven_mul _ (Nat.mul_pos hden (Nat.two_pow_pos e))]
    exact Nat.min_eq_right (Nat.le_of_lt hfinite)

/-- A greater magnitude has a greater value. -/
theorem units_lt_units {m n : Nat} (h : m < n) : f.units m < f.units n := by
  have hpos := f.fractionSize_pos
  rcases Nat.lt_or_ge n f.fractionSize with hn | hn
  · rwa [f.units_of_lt (Nat.lt_trans h hn), f.units_of_lt hn]
  obtain ⟨e, t, rfl, htlo, hthi⟩ := f.exists_significand hn
  rw [f.units_add e htlo hthi]
  rcases Nat.lt_or_ge m f.fractionSize with hm | hm
  · rw [f.units_of_lt hm]
    exact Nat.lt_of_lt_of_le (Nat.lt_of_lt_of_le hm htlo)
      (Nat.le_mul_of_pos_right t (Nat.two_pow_pos e))
  obtain ⟨d, s, rfl, hslo, hshi⟩ := f.exists_significand hm
  rw [f.units_add d hslo hshi]
  rcases Nat.lt_trichotomy d e with hlt | rfl | hgt
  · obtain ⟨k, rfl⟩ := Nat.exists_eq_add_of_lt hlt
    calc s * 2 ^ d < 2 * f.fractionSize * 2 ^ d :=
          Nat.mul_lt_mul_of_pos_right hshi (Nat.two_pow_pos d)
      _ = f.fractionSize * 2 ^ (d + 1) := by rw [Nat.pow_succ, Nat.mul_comm 2, Nat.mul_assoc,
          Nat.mul_comm 2]
      _ ≤ t * 2 ^ (d + k + 1) := Nat.mul_le_mul htlo
          (Nat.pow_le_pow_right (by decide) (by omega))
  · exact Nat.mul_lt_mul_of_pos_right (by omega) (Nat.two_pow_pos d)
  · -- a greater exponent with a smaller magnitude is impossible
    have hle : (e + 1) * f.fractionSize ≤ d * f.fractionSize := Nat.mul_le_mul_right _ hgt
    rw [Nat.add_mul, Nat.one_mul] at hle
    omega

/-- A magnitude that is not smaller has a value that is not smaller. -/
theorem units_le_units {m n : Nat} (h : m ≤ n) : f.units m ≤ f.units n := by
  rcases Nat.lt_or_eq_of_le h with hlt | rfl
  · exact Nat.le_of_lt (f.units_lt_units hlt)
  · exact Nat.le_refl _

/-- The order of values is the order of magnitudes. -/
theorem le_of_units_le {m n : Nat} (h : f.units m ≤ f.units n) : m ≤ n := by
  rcases Nat.lt_or_ge n m with hlt | hge
  · have hlt := f.units_lt_units hlt
    omega
  · exact hge

/-! ## Widening -/

/-- A number with few enough digits is the value of a magnitude. -/
theorem exists_units {a b : Nat} (hpos : 0 < a) (ha : a < 2 * f.fractionSize)
    (hb : f.fractionBits ≤ b) : ∃ m, f.units m = a * 2 ^ b ∧ m < (b + 2) * f.fractionSize := by
  have hlog : a.log2 ≤ f.fractionBits := by
    have hlt : a.log2 < f.fractionBits + 1 := by
      rw [Nat.log2_lt (Nat.ne_of_gt hpos), Nat.pow_succ, Nat.mul_comm]
      exact ha
    omega
  obtain ⟨t, ht⟩ := Nat.exists_eq_add_of_le hlog
  have hlo : f.fractionSize ≤ a * 2 ^ t := by
    show 2 ^ f.fractionBits ≤ _
    rw [ht, Nat.pow_add]
    exact Nat.mul_le_mul_right _ (Nat.log2_self_le (Nat.ne_of_gt hpos))
  have hhi : a * 2 ^ t < 2 * f.fractionSize := by
    show _ < 2 * 2 ^ f.fractionBits
    rw [ht, Nat.pow_add, ← Nat.mul_assoc, Nat.mul_comm 2, ← Nat.pow_succ]
    exact Nat.mul_lt_mul_of_pos_right Nat.lt_log2_self (Nat.two_pow_pos t)
  refine ⟨(b - t) * f.fractionSize + a * 2 ^ t, ?_, ?_⟩
  · rw [f.units_add _ hlo hhi, Nat.mul_assoc, ← Nat.pow_add]
    congr 2
    omega
  · calc (b - t) * f.fractionSize + a * 2 ^ t
          < (b - t) * f.fractionSize + 2 * f.fractionSize := Nat.add_lt_add_left hhi _
      _ ≤ b * f.fractionSize + 2 * f.fractionSize :=
          Nat.add_le_add_right (Nat.mul_le_mul_right _ (Nat.sub_le b t)) _
      _ = (b + 2) * f.fractionSize := (Nat.add_mul b 2 _).symm

/-- What a wider format makes of a value that it has too. -/
theorem ofRatio_of_units_eq {source target : Format} {d m wide : Nat}
    (hscale : target.scale = source.scale + d) (hunits : target.units wide = source.units m * 2 ^ d)
    (hfinite : wide < target.infinity) :
    target.ofRatio (source.units m) (Nat.pow 2 source.scale) = wide := by
  unfold ofRatio
  rw [Nat.pow_eq, Nat.pow_eq, hscale, Nat.add_comm, Nat.pow_add, ← Nat.mul_assoc, ← hunits]
  exact target.nearest_units hfinite (Nat.two_pow_pos _)

/-- What a narrower format makes of it again. -/
theorem ofRatio_units_of_eq {source target : Format} {d m wide : Nat}
    (hscale : target.scale = source.scale + d) (hunits : target.units wide = source.units m * 2 ^ d)
    (hfinite : m < source.infinity) :
    source.ofRatio (target.units wide) (Nat.pow 2 target.scale) = m := by
  unfold ofRatio
  rw [Nat.pow_eq, Nat.pow_eq, hunits, Nat.mul_assoc, ← Nat.pow_add, Nat.add_comm d, ← hscale]
  exact source.nearest_units hfinite (Nat.two_pow_pos _)

/-- The value of every finite 32-bit number is one of a finite 64-bit number. -/
theorem exists_double {m : Nat} (h : m < single.infinity) :
    ∃ wide, wide < double.infinity ∧
      double.units wide = single.units m * 2 ^ (double.scale - single.scale) := by
  have hdouble : double.fractionSize = 2 ^ 52 := rfl
  have hsingle : single.fractionSize = 2 ^ 23 := rfl
  have hbits : double.fractionBits = 52 := rfl
  have hinfinity : double.infinity = 2047 * 2 ^ 52 := rfl
  have hinfinity' : single.infinity = 255 * 2 ^ 23 := rfl
  have hgap : double.scale - single.scale = 925 := rfl
  rcases Nat.eq_zero_or_pos m with rfl | hpos
  · refine ⟨0, by omega, ?_⟩
    rw [units_of_lt _ double.fractionSize_pos, units_of_lt _ single.fractionSize_pos]
    exact (Nat.zero_mul _).symm
  rcases Nat.lt_or_ge m single.fractionSize with hlt | hge
  · obtain ⟨wide, hunits, hbound⟩ := double.exists_units (b := double.scale - single.scale) hpos
      (by omega) (by omega)
    rw [hgap, hdouble] at hbound
    refine ⟨wide, by omega, ?_⟩
    rw [hunits, units_of_lt _ hlt]
  · obtain ⟨e, significand, rfl, hlo, hhi⟩ := single.exists_significand hge
    obtain ⟨wide, hunits, hbound⟩ := double.exists_units (b := e + (double.scale - single.scale))
      (Nat.lt_of_lt_of_le single.fractionSize_pos hlo) (by omega) (by omega)
    refine ⟨wide, ?_, ?_⟩
    · rw [hsingle, hinfinity'] at h
      rw [hgap, hdouble] at hbound
      omega
    · rw [hunits, units_add _ e hlo hhi, Nat.pow_add, Nat.mul_assoc]

/-! ## Signs -/

/-- A word is its magnitude with its sign. -/
theorem signed_magnitude {word : Nat} (h : word < 2 * f.signBit) :
    f.signed (f.isNegative word) (f.magnitude word) = word := by
  unfold signed isNegative magnitude
  by_cases hneg : f.signBit ≤ word
  · rw [Nat.mod_eq_sub_mod hneg, Nat.mod_eq_of_lt (by omega), if_pos (decide_eq_true hneg)]
    omega
  · rw [Nat.mod_eq_of_lt (by omega), if_neg (by simpa using hneg)]

/-- The magnitude of a signed word. -/
theorem magnitude_signed (negative : Bool) {m : Nat} (h : m < f.signBit) :
    f.magnitude (f.signed negative m) = m := by
  unfold signed magnitude
  cases negative
  · exact Nat.mod_eq_of_lt h
  · rw [if_pos rfl, Nat.add_mod_left, Nat.mod_eq_of_lt h]

/-- The sign of a signed word. -/
theorem isNegative_signed (negative : Bool) {m : Nat} (h : m < f.signBit) :
    f.isNegative (f.signed negative m) = negative := by
  unfold signed isNegative
  cases negative
  · simpa using h
  · simp

/-- A signed word has one bit more than its magnitude. -/
theorem signed_lt (negative : Bool) {m : Nat} (h : m < f.signBit) :
    f.signed negative m < 2 * f.signBit := by
  unfold signed
  split <;> omega

/-- What becomes of a finite number in another format. -/
theorem convert_of_finite {source : Format} (target : Format) {word : Nat}
    (h : source.magnitude word < source.infinity) :
    source.convert target word = target.signed (source.isNegative word)
      (target.ofRatio (source.units (source.magnitude word)) (Nat.pow 2 source.scale)) := by
  unfold convert
  simp only [Nat.not_lt.2 (Nat.le_of_lt h), Nat.ne_of_lt h, if_false]

/-- What becomes of infinity in another format. -/
theorem convert_of_infinite {source : Format} (target : Format) {word : Nat}
    (h : source.magnitude word = source.infinity) :
    source.convert target word = target.signed (source.isNegative word) target.infinity := by
  unfold convert
  simp only [h, Nat.lt_irrefl, if_false, if_true]

end Format

/-! ## Widening and narrowing -/

/-- What a finite 32-bit number becomes has the same sign and the same value. -/
theorem exists_widen_of_finite {word : UInt32} (h : Format.single.isFinite word.toNat = true) :
    ∃ wide, wide < Format.double.infinity ∧
      Format.double.units wide
        = Format.single.units (Format.single.magnitude word.toNat)
          * 2 ^ (Format.double.scale - Format.single.scale) ∧
      (widen word).toNat = Format.double.signed (Format.single.isNegative word.toNat) wide := by
  have hfinite : Format.single.magnitude word.toNat < Format.single.infinity := of_decide_eq_true h
  obtain ⟨wide, hwide, hunits⟩ := Format.exists_double hfinite
  refine ⟨wide, hwide, hunits, ?_⟩
  have hconvert := Format.convert_of_finite .double hfinite
  rw [Format.ofRatio_of_units_eq (by decide) hunits hwide] at hconvert
  unfold widen
  rw [hconvert, Nat.toUInt64_eq, UInt64.toNat_ofNat']
  exact Nat.mod_eq_of_lt (Format.signed_lt _ _ (Nat.lt_trans hwide (by decide)))

/-- Infinity becomes infinity with the same sign. -/
theorem widen_of_infinite {word : UInt32}
    (h : Format.single.magnitude word.toNat = Format.single.infinity) :
    (widen word).toNat
      = Format.double.signed (Format.single.isNegative word.toNat) Format.double.infinity := by
  unfold widen
  rw [Format.convert_of_infinite .double h, Nat.toUInt64_eq, UInt64.toNat_ofNat']
  exact Nat.mod_eq_of_lt (Format.signed_lt _ _ (by decide))

/-- What is no not-a-number is finite or infinite. -/
theorem Format.finite_or_infinite {f : Format} {word : Nat} (h : f.isNaN word = false) :
    f.isFinite word = true ∨ f.magnitude word = f.infinity := by
  have hle : f.magnitude word ≤ f.infinity := Nat.le_of_not_lt (of_decide_eq_false h)
  rcases Nat.lt_or_eq_of_le hle with hlt | heq
  · exact .inl (decide_eq_true hlt)
  · exact .inr heq

/-- What a widened number is narrowed to has its sign. -/
theorem narrow_of_signed {word : UInt64} {negative : Bool} {wide m : Nat}
    (hword : word.toNat = Format.double.signed negative wide) (hwide : wide < Format.double.signBit)
    (hm : Format.double.convert .single word.toNat
      = Format.single.signed (Format.double.isNegative word.toNat) m) :
    narrow word = (Format.single.signed negative m).toUInt32 := by
  unfold narrow
  rw [hm, hword, Format.isNegative_signed _ _ hwide]

/-- A 32-bit number that is widened and narrowed again is the same number. -/
theorem narrow_widen {word : UInt32} (h : Format.single.isNaN word.toNat = false) :
    narrow (widen word) = word := by
  have hself : (Format.single.signed (Format.single.isNegative word.toNat)
      (Format.single.magnitude word.toNat)).toUInt32 = word := by
    rw [Format.signed_magnitude _ word.toNat_lt, Nat.toUInt32_eq, UInt32.ofNat_toNat]
  rcases Format.finite_or_infinite h with hfinite | hinfinite
  · obtain ⟨wide, hwide, hunits, hwiden⟩ := exists_widen_of_finite hfinite
    have hlt : wide < Format.double.signBit := Nat.lt_trans hwide (by decide)
    have hmagnitude : Format.double.magnitude (widen word).toNat = wide := by
      rw [hwiden, Format.magnitude_signed _ _ hlt]
    have hdouble : Format.double.magnitude (widen word).toNat < Format.double.infinity := by
      rwa [hmagnitude]
    have hconvert := Format.convert_of_finite .single hdouble
    rw [hmagnitude, Format.ofRatio_units_of_eq (by decide) hunits (of_decide_eq_true hfinite)]
      at hconvert
    rw [narrow_of_signed hwiden hlt hconvert, hself]
  · have hwiden := widen_of_infinite hinfinite
    have hlt : Format.double.infinity < Format.double.signBit := by decide
    have hmagnitude : Format.double.magnitude (widen word).toNat = Format.double.infinity := by
      rw [hwiden, Format.magnitude_signed _ _ hlt]
    rw [narrow_of_signed hwiden hlt (Format.convert_of_infinite .single hmagnitude), ← hinfinite,
      hself]

/-- A number that is widened does not become a not-a-number. -/
theorem isNaN_widen {word : UInt32} (h : Format.single.isNaN word.toNat = false) :
    Format.double.isNaN (widen word).toNat = false := by
  have hinfinity : Format.double.infinity < Format.double.signBit := by decide
  refine decide_eq_false (Nat.not_lt.2 ?_)
  rcases Format.finite_or_infinite h with hfinite | hinfinite
  · obtain ⟨wide, hwide, _, hwiden⟩ := exists_widen_of_finite hfinite
    rw [hwiden, Format.magnitude_signed _ _ (Nat.lt_trans hwide hinfinity)]
    exact Nat.le_of_lt hwide
  · have hmagnitude : Format.double.magnitude (widen word).toNat = Format.double.infinity := by
      rw [widen_of_infinite hinfinite, Format.magnitude_signed _ _ hinfinity]
    exact Nat.le_of_eq hmagnitude

/-- Widening keeps the order of finite magnitudes. -/
theorem magnitude_widen_le {a b : UInt32} (ha : Format.single.isFinite a.toNat = true)
    (hb : Format.single.isFinite b.toNat = true)
    (h : Format.single.magnitude a.toNat ≤ Format.single.magnitude b.toNat) :
    Format.double.magnitude (widen a).toNat ≤ Format.double.magnitude (widen b).toNat := by
  obtain ⟨x, hx, hunits, hwiden⟩ := exists_widen_of_finite ha
  obtain ⟨y, hy, hunits', hwiden'⟩ := exists_widen_of_finite hb
  rw [hwiden, hwiden', Format.magnitude_signed _ _ (Nat.lt_trans hx (by decide)),
    Format.magnitude_signed _ _ (Nat.lt_trans hy (by decide))]
  refine Format.double.le_of_units_le ?_
  rw [hunits, hunits']
  exact Nat.mul_le_mul_right _ (Format.single.units_le_units h)

end DynProto.Number
