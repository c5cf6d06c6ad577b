import DynProto.Name.CamelCase
import DynProto.Name.Identifier
import Mathlib

/-!
# Camel case of identifiers

The camel case form of an identifier is its own camel case form (`lowerCamelCase_idem`), unless the
identifier starts with an underscore: the form of `_foo` is `Foo`, and that of `Foo` is `foo`.
-/

namespace DynProto

/-! ## Letters -/

/-- What holds of the first 128 characters, as far as they are letters, holds of every ASCII
letter. -/
theorem forall_letter {P : Char → Prop}
    (h : ∀ n < 128, (Char.ofNat n).isAlpha = true → P (Char.ofNat n)) {c : Char}
    (hc : c.isAlpha = true) : P c := by
  have hlt : c.toNat < 128 := by
    simp only [Char.isAlpha, Char.isUpper, Char.isLower, Bool.or_eq_true, Bool.and_eq_true,
      decide_eq_true_eq, UInt32.le_iff_toNat_le] at hc
    rcases hc with ⟨_, hle⟩ | ⟨_, hle⟩
    · exact Nat.lt_of_le_of_lt hle (by decide)
    · exact Nat.lt_of_le_of_lt hle (by decide)
  have hchar : Char.ofNat c.toNat = c := Char.ofNat_toNat c
  rw [← hchar] at hc ⊢
  exact h c.toNat hlt hc

/-- The capital of a letter is a letter and its own capital. -/
theorem upperCase_letter {c : Char} (hc : c.isAlpha = true) :
    Text.upperCase c = [c.toUpper] ∧ c.toUpper.isAlpha = true ∧ c.toUpper.toUpper = c.toUpper := by
  refine forall_letter (P := fun c => Text.upperCase c = [c.toUpper] ∧ c.toUpper.isAlpha = true ∧
    c.toUpper.toUpper = c.toUpper) ?_ hc
  decide +kernel

/-- The small form of a letter is a letter and its own small form. -/
theorem lowerCase_letter {c : Char} (hc : c.isAlpha = true) :
    Text.lowerCase c = [c.toLower] ∧ c.toLower.isAlpha = true ∧ c.toLower.toLower = c.toLower := by
  refine forall_letter (P := fun c => Text.lowerCase c = [c.toLower] ∧ c.toLower.isAlpha = true ∧
    c.toLower.toLower = c.toLower) ?_ hc
  decide +kernel

/-- A letter is neither an underscore nor a digit. -/
theorem letter_ne {c : Char} (hc : c.isAlpha = true) : c ≠ '_' ∧ ¬ c.isDigit = true := by
  refine forall_letter (P := fun c => c ≠ '_' ∧ ¬ c.isDigit = true) ?_ hc
  decide +kernel

/-! ## Names -/

variable {capitalize capitalize' first : Bool} {c : Char} {rest : List Char}

/-- An underscore is dropped. -/
theorem camelChars_underscore :
    camelChars capitalize first ('_' :: rest) = camelChars true false rest :=
  if_pos rfl

/-- A digit stays. -/
theorem camelChars_digit (hc : c.isDigit = true) :
    camelChars capitalize first (c :: rest) = c :: camelChars true false rest := by
  have hne : c ≠ '_' := by
    rintro rfl
    cases hc
  rw [camelChars, if_neg hne, if_pos hc]

/-- A letter at the start is lowered. -/
theorem camelChars_first (hc : c.isAlpha = true) :
    camelChars false true (c :: rest) = c.toLower :: camelChars false false rest := by
  obtain ⟨hne, hdigit⟩ := letter_ne hc
  rw [camelChars, if_neg hne, if_neg hdigit, (lowerCase_letter hc).1]
  rfl

/-- A letter behind the start is raised if a capital is asked for, and stays otherwise. -/
theorem camelChars_letter (hc : c.isAlpha = true) :
    camelChars capitalize false (c :: rest)
      = (if capitalize then c.toUpper else c) :: camelChars false false rest := by
  obtain ⟨hne, hdigit⟩ := letter_ne hc
  rw [camelChars, if_neg hne, if_neg hdigit, (upperCase_letter hc).1]
  cases capitalize <;> rfl

/-- What was put in camel case does not change behind the first character. A capital that is asked
for from outside must have been asked for before. -/
theorem camelChars_camelChars (hword : ∀ c ∈ rest, isIdentifierRest c = true)
    (hcapitalize : capitalize' = true → capitalize = true) :
    camelChars capitalize' false (camelChars capitalize false rest)
      = camelChars capitalize false rest := by
  induction rest generalizing capitalize capitalize' with
  | nil => rfl
  | cons c rest ih =>
    obtain ⟨hc, hrest⟩ := List.forall_mem_cons.1 hword
    simp only [isIdentifierRest, Char.isAlphanum, Bool.or_eq_true, beq_iff_eq] at hc
    rcases hc with (halpha | hdigit) | rfl
    · obtain ⟨_, hupper, hidem⟩ := upperCase_letter halpha
      cases capitalize with
      | true =>
        rw [camelChars_letter halpha, if_pos rfl, camelChars_letter hupper, hidem, ite_self,
          ih hrest fun h => h]
      | false =>
        have hfalse : capitalize' = false := Bool.eq_false_iff.2 fun h => nomatch hcapitalize h
        subst hfalse
        rw [camelChars_letter halpha, if_neg Bool.false_ne_true, camelChars_letter halpha,
          if_neg Bool.false_ne_true, ih hrest fun h => h]
    · rw [camelChars_digit hdigit, camelChars_digit hdigit, ih hrest fun h => h]
    · rw [camelChars_underscore]
      exact ih hrest fun _ => rfl

/-- The camel case form of an identifier that does not start with an underscore is its own. -/
theorem lowerCamelCase_idem {name : String} (hname : isIdentifier name.toList = true)
    (hfirst : name.toList.head? ≠ some '_') :
    lowerCamelCase (lowerCamelCase name) = lowerCamelCase name := by
  unfold lowerCamelCase
  rw [String.toList_ofList]
  rcases hchars : name.toList with _ | ⟨c, rest⟩
  · rfl
  · rw [hchars] at hname hfirst
    simp only [isIdentifier, isIdentifierStart, Bool.and_eq_true, Bool.or_eq_true, beq_iff_eq,
      List.all_eq_true] at hname
    have halpha : c.isAlpha = true := hname.1.resolve_right fun h => hfirst (by rw [h]; rfl)
    obtain ⟨_, hlower, hidem⟩ := lowerCase_letter halpha
    rw [camelChars_first halpha, camelChars_first hlower, hidem,
      camelChars_camelChars hname.2 fun h => h]

end DynProto
