import DynProto.Text.Decimal
import Mathlib

/-!
# Decimal integers as they are spelled

How many digits a number is written with, and which texts are read as which integers
(`integer?_eq_some_iff`, `unsigned?_eq_some_iff`): those that spell them, with zeros in front or
without.
-/

namespace DynProto.Text

/-! ## How many digits a number has -/

/-- A number lies below the power of ten that has one digit more. -/
theorem lt_pow_length_digits (n : Nat) : n < 10 ^ (digits n).length := by
  induction n using Nat.strongRecOn with
  | ind n ih =>
    unfold digits
    split
    · simpa
    · have hrest := ih (n / 10) (by omega)
      rw [List.length_append, List.length_singleton, Nat.pow_succ]
      omega

/-- A number is not below the power of ten that has as many digits. -/
theorem pow_length_digits_le {n : Nat} (h : 0 < n) : 10 ^ (digits n).length ≤ n * 10 := by
  induction n using Nat.strongRecOn with
  | ind n ih =>
    unfold digits
    split
    · rw [List.length_singleton]
      omega
    · have hrest := ih (n / 10) (by omega) (by omega)
      rw [List.length_append, List.length_singleton, Nat.pow_succ]
      omega

/-! ## Digits in front of other characters -/

/-- Digits end where something else follows. -/
theorem takeWhile_isDigit_append {ds rest : List Char} (hdigits : ∀ c ∈ ds, c.isDigit = true)
    (hrest : ∀ c ∈ rest.head?, c.isDigit = false) :
    (ds ++ rest).takeWhile Char.isDigit = ds ∧ (ds ++ rest).dropWhile Char.isDigit = rest := by
  have hnone : rest.takeWhile Char.isDigit = [] ∧ rest.dropWhile Char.isDigit = rest := by
    cases rest with
    | nil => exact ⟨rfl, rfl⟩
    | cons c rest =>
      have hc := hrest c rfl
      exact ⟨List.takeWhile_cons_of_neg (by simp [hc]), List.dropWhile_cons_of_neg (by simp [hc])⟩
  rw [List.takeWhile_append_of_pos hdigits, List.dropWhile_append_of_pos hdigits, hnone.1, hnone.2,
    List.append_nil]
  exact ⟨rfl, rfl⟩

/-! ## What is read as an integer -/

/-- The characters of an integer in decimal: digits, after a plus sign, or a minus sign where
integers may be negative, or no sign. -/
inductive SpellsInteger (signed : Bool) : List Char → Int → Prop
  /-- There is no sign. -/
  | bare {ds : List Char} (hne : ds ≠ []) (hdigits : ∀ c ∈ ds, c.isDigit = true) :
      SpellsInteger signed ds (digitsValue ds)
  /-- There is a plus sign. -/
  | plus {ds : List Char} (hne : ds ≠ []) (hdigits : ∀ c ∈ ds, c.isDigit = true) :
      SpellsInteger signed ('+' :: ds) (digitsValue ds)
  /-- There is a minus sign. -/
  | minus {ds : List Char} (hsigned : signed = true) (hne : ds ≠ [])
      (hdigits : ∀ c ∈ ds, c.isDigit = true) :
      SpellsInteger signed ('-' :: ds) (-(digitsValue ds : Int))

/-- Digits and nothing else spell a natural number. -/
theorem natural?_eq_some_iff {cs : List Char} {n : Nat} :
    natural? cs = some n ↔ cs ≠ [] ∧ (∀ c ∈ cs, c.isDigit = true) ∧ digitsValue cs = n := by
  unfold natural?
  split <;> simp_all

/-- What spells an integer without a minus sign spells it where there may be one. -/
theorem SpellsInteger.of_unsigned {cs : List Char} {i : Int} (h : SpellsInteger false cs i) :
    SpellsInteger true cs i := by
  cases h with
  | bare hne hdigits => exact .bare hne hdigits
  | plus hne hdigits => exact .plus hne hdigits
  | minus hsigned => cases hsigned

/-- What is read as an unsigned integer is what spells it without a minus sign. -/
theorem unsigned?_eq_some_iff {cs : List Char} {i : Int} :
    (unsigned? cs).map Int.ofNat = some i ↔ SpellsInteger false cs i := by
  constructor
  · intro h
    obtain ⟨n, hn, rfl⟩ := Option.map_eq_some_iff.1 h
    unfold unsigned? at hn
    split at hn
    all_goals obtain ⟨hne, hdigits, rfl⟩ := natural?_eq_some_iff.1 hn
    · exact .plus hne hdigits
    · exact .bare hne hdigits
  · rintro (⟨hne, hdigits⟩ | ⟨hne, hdigits⟩ | ⟨hsigned, _, _⟩)
    · have hnatural := natural?_eq_some_iff.2 ⟨hne, hdigits, rfl⟩
      unfold unsigned?
      split
      · exact absurd (hdigits '+' List.mem_cons_self) (by decide)
      · rw [hnatural]
        rfl
    · rw [unsigned?, natural?_eq_some_iff.2 ⟨hne, hdigits, rfl⟩]
      rfl
    · cases hsigned

/-- What is read as an integer is what spells it. -/
theorem integer?_eq_some_iff {cs : List Char} {i : Int} :
    integer? cs = some i ↔ SpellsInteger true cs i := by
  have hminus (ds : List Char) : integer? ('-' :: ds)
      = (natural? ds).map fun n : Nat => -(n : Int) := by
    rw [integer?]
    cases natural? ds <;> rfl
  have hunsigned {cs : List Char} (h : cs.head? ≠ some '-') :
      integer? cs = (unsigned? cs).map Int.ofNat := by
    unfold integer?
    split
    · exact absurd rfl h
    · cases unsigned? cs <;> rfl
  constructor
  · intro h
    by_cases hhead : cs.head? = some '-'
    · obtain ⟨ds, rfl⟩ := List.head?_eq_some_iff.1 hhead
      rw [hminus] at h
      obtain ⟨n, hn, rfl⟩ := Option.map_eq_some_iff.1 h
      obtain ⟨hne, hdigits, rfl⟩ := natural?_eq_some_iff.1 hn
      exact .minus rfl hne hdigits
    · rw [hunsigned hhead] at h
      exact (unsigned?_eq_some_iff.1 h).of_unsigned
  · rintro (⟨hne, hdigits⟩ | ⟨hne, hdigits⟩ | ⟨_, hne, hdigits⟩)
    · rw [hunsigned, unsigned?_eq_some_iff]
      · exact .bare hne hdigits
      · intro hhead
        exact absurd (hdigits '-' (List.mem_of_head? hhead)) (by decide)
    · rw [hunsigned (by simp), unsigned?_eq_some_iff]
      exact .plus hne hdigits
    · rw [hminus, natural?_eq_some_iff.2 ⟨hne, hdigits, rfl⟩]
      rfl

end DynProto.Text
