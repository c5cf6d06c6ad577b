import DynProto.Proofs.Record.WellFormed

/-!
# Records of related types

Two types are compatible if their fields are told apart by number and hold the same where a number
is a field of both; a type that was changed by adding fields, or by dropping some, is compatible
with what it was (`MessageType.compatible_of_sublist`). A record of one type can then be seen as one
of the other, `Record.recast`: what is held under a number stays, what is held under a number that
the other type does not have is dropped, and fields that only the other type has hold their
defaults.
-/

namespace DynProto

/-! ## Compatible types -/

/-- What a field is, its name for JSON aside. -/
def Field.signature (field : Field) : Nat × String × FieldKind :=
  (field.number, field.name, field.kind)

/-- Two types with distinct numbers whose fields hold the same where they have one number. -/
structure MessageType.Compatible (source target : MessageType) : Prop where
  /-- The numbers of the first type are distinct. -/
  nodup_source : (source.fields.map Field.number).Nodup
  /-- The numbers of the second type are distinct. -/
  nodup_target : (target.fields.map Field.number).Nodup
  /-- Fields with one number hold the same. -/
  kind_eq : ∀ f ∈ source.fields, ∀ g ∈ target.fields, f.number = g.number → f.kind = g.kind

namespace MessageType

variable {source target old new : MessageType}

/-- It does not matter which of two compatible types comes first. -/
theorem Compatible.symm (h : Compatible source target) : Compatible target source where
  nodup_source := h.nodup_target
  nodup_target := h.nodup_source
  kind_eq g hg f hf hnumber := (h.kind_eq f hf g hg hnumber.symm).symm

/-- A type is compatible with one that has all its fields, possibly among others. -/
theorem compatible_of_sublist
    (hfields : (old.fields.map Field.signature).Sublist (new.fields.map Field.signature))
    (hnodup : (new.fields.map Field.number).Nodup) : Compatible old new where
  nodup_source := by
    have hnumbers := hfields.map Prod.fst
    rw [List.map_map, List.map_map] at hnumbers
    exact hnodup.sublist hnumbers
  nodup_target := hnodup
  kind_eq f hf g hg hnumber := by
    obtain ⟨g', hg', hsignature⟩ := List.mem_map.1 (hfields.subset (List.mem_map_of_mem hf))
    simp only [Field.signature, Prod.mk.injEq] at hsignature
    obtain ⟨hnumber', _, hkind⟩ := hsignature
    have heq : g' = g := List.inj_on_of_nodup_map hnodup hg' hg (hnumber'.trans hnumber)
    rw [← hkind, heq]

/-- A number that a type does not know is unknown to any with fewer fields. -/
theorem indexOfNumber?_eq_none_of_sublist
    (hfields : (old.fields.map Field.signature).Sublist (new.fields.map Field.signature))
    {number : Nat} (h : new.indexOfNumber? number = none) : old.indexOfNumber? number = none := by
  rw [indexOfNumber?_eq_none] at h ⊢
  intro f hf
  obtain ⟨g, hg, hsignature⟩ := List.mem_map.1 (hfields.subset (List.mem_map_of_mem hf))
  rw [← (Prod.mk.inj hsignature).1]
  exact h g hg

end MessageType

/-! ## Recasting records -/

namespace Record

/-- A record of one type as a record of another: a field holds what the record holds under its
number, or its default if the first type does not have the number. -/
def recast (source target : MessageType) (record : Record) : Record :=
  target.fields.map fun field =>
    (source.indexOfNumber? field.number).elim field.kind.default record.value?

variable {source target : MessageType} {record : Record} {i j : Nat} {f g : Field}

/-- What a field holds after recasting. -/
theorem getElem?_recast (source target : MessageType) (record : Record) (j : Nat) :
    (record.recast source target)[j]? = (target.fields[j]?).map fun field =>
      (source.indexOfNumber? field.number).elim field.kind.default record.value? :=
  List.getElem?_map

/-- A field holds what was held under its number. -/
theorem getElem?_recast_of_number (h : source.Compatible target)
    (hf : source.fields[i]? = some f) (hg : target.fields[j]? = some g)
    (hnumber : f.number = g.number) :
    (record.recast source target)[j]? = some (record.value? i) := by
  rw [getElem?_recast, hg, Option.map_some, ← hnumber,
    MessageType.indexOfNumber?_of_nodup h.nodup_source hf, Option.elim_some]

/-- What is set under a number that both types have is set in the recast record. -/
theorem recast_set (h : source.Compatible target) (hf : source.fields[i]? = some f)
    (hg : target.fields[j]? = some g) (hnumber : f.number = g.number) (hlt : i < record.length)
    (v : Value) :
    Record.recast source target (record.set i (some v))
      = (record.recast source target).set j (some v) := by
  refine List.ext_getElem? fun k => ?_
  rw [getElem?_recast, List.getElem?_set, getElem?_recast]
  rcases hfield : target.fields[k]? with _ | field
  · have hjk : j ≠ k := by
      rintro rfl
      rw [hg] at hfield
      cases hfield
    rw [if_neg hjk]
    rfl
  · by_cases hjk : j = k
    · subst hjk
      rw [hg] at hfield
      cases hfield
      have hindex := MessageType.indexOfNumber?_of_nodup h.nodup_source hf
      rw [hnumber] at hindex
      simp [recast, hindex, value?_set, hlt, (List.getElem?_eq_some_iff.1 hg).1]
    · rw [if_neg hjk, Option.map_some, Option.map_some]
      rcases hindex : source.indexOfNumber? field.number with _ | i'
      · rfl
      · -- another field has another number, and thus another place
        obtain ⟨f', hf', hnumber'⟩ := MessageType.exists_of_indexOfNumber? hindex
        have hne : i ≠ i' := by
          rintro rfl
          rw [hf] at hf'
          cases hf'
          have hj := MessageType.indexOfNumber?_of_nodup h.nodup_target hg
          have hk := MessageType.indexOfNumber?_of_nodup h.nodup_target hfield
          rw [← hnumber, hnumber', hk] at hj
          exact hjk (Option.some.inj hj).symm
        rw [Option.elim_some, Option.elim_some, value?_set, if_neg fun hand => hne hand.1]

/-- What is set under a number that the other type does not have is not seen. -/
theorem recast_set_of_none (hf : source.fields[i]? = some f)
    (hnone : target.indexOfNumber? f.number = none) (v : Value) :
    Record.recast source target (record.set i (some v)) = record.recast source target := by
  refine List.map_congr_left fun field hfield => ?_
  rcases hindex : source.indexOfNumber? field.number with _ | i'
  · rfl
  · obtain ⟨f', hf', hnumber⟩ := MessageType.exists_of_indexOfNumber? hindex
    have hne : i ≠ i' := by
      rintro rfl
      rw [hf] at hf'
      cases hf'
      exact MessageType.indexOfNumber?_eq_none.1 hnone field hfield hnumber.symm
    rw [Option.elim_some, Option.elim_some, value?_set, if_neg fun hand => hne hand.1]

/-- Defaults are recast to defaults. -/
theorem recast_defaultRecord (h : source.Compatible target) :
    Record.recast source target source.defaultRecord = target.defaultRecord := by
  refine List.map_congr_left fun field hfield => ?_
  rcases hindex : source.indexOfNumber? field.number with _ | i
  · rfl
  · obtain ⟨f, hf, hnumber⟩ := MessageType.exists_of_indexOfNumber? hindex
    rw [Option.elim_some, value?_defaultRecord hf,
      h.kind_eq f (List.mem_of_getElem? hf) field hfield hnumber]

end Record

end DynProto
