import DynProto.Proofs.Record.WellFormed

/-!
# Merging records

`Record.merge` is the record that results when one record is merged into another of the same type.
A scalar or an enum number replaces the earlier one unless it is the default, lists are joined, of
maps the later one's entries count, and single messages that are both set are merged in turn. An
empty slot leaves the other one as it is.

The default record is neutral: merging a record of the type into it gives the record
(`merge_defaultRecord`).
-/

namespace DynProto

/-! ## Values -/

namespace Value

mutual

/-- The value with a later one merged into it. -/
def merge : Value → Value → Value
  | message slots, message more => message (mergeSlots slots more)
  | list elements, list more => list (elements ++ more)
  | map entries, map more => map (OrderedMap.union entries more)
  | v, w => if w.isDefault then v else w
termination_by structural _ w => w

/-- The slot with a later one merged into it. -/
def mergeSlot : Option Value → Option Value → Option Value
  | some v, some w => some (merge v w)
  | none, slot => slot
  | slot, none => slot
termination_by structural _ slot => slot

/-- The slots with later ones merged into them. -/
def mergeSlots : List (Option Value) → List (Option Value) → List (Option Value)
  | slot :: slots, later :: more => mergeSlot slot later :: mergeSlots slots more
  | [], more => more
  | slots, [] => slots
termination_by structural _ slots => slots

end

@[simp] theorem mergeSlot_none (slot : Option Value) : mergeSlot slot none = slot := by
  cases slot <;> rfl

@[simp] theorem none_mergeSlot (slot : Option Value) : mergeSlot none slot = slot := by
  cases slot <;> rfl

@[simp] theorem mergeSlot_some (v w : Value) :
    mergeSlot (some v) (some w) = some (v.merge w) := rfl

/-- A later value of a scalar kind counts unless it is the default. -/
theorem merge_of_fits {kind : Scalar} (v : Value) {w : Value} (h : w.fits kind = true) :
    v.merge w = if w.isDefault then v else w := by
  cases w
  case enum | message | list | map => cases h
  all_goals cases v <;> rfl

/-- A later enum number counts unless it is zero. -/
theorem merge_enum (v : Value) (n : Int32) :
    v.merge (.enum n) = if n = 0 then v else .enum n := by
  cases v <;> simp [merge, isDefault]

end Value

/-! ## Defaults are neutral -/

variable {registry : Registry} {kind : FieldKind} {v w : Value}

/-- A value that is merged into the default of its field stays as it is. -/
theorem FieldKind.merge_into_default (hdefault : kind.default = some v)
    (h : kind.Suits registry w) : v.merge w = w := by
  rcases h with @⟨kind, w, h⟩ | @⟨name, n⟩ | _ | _ | _ | _ | @⟨key, value, entries, hordered, _, _⟩
  case scalar =>
    cases hdefault
    rw [Value.merge_of_fits _ h]
    split_ifs with hzero
    · exact (Value.eq_scalarDefault_of_isDefault h hzero).symm
    · rfl
  case enum =>
    cases hdefault
    rw [Value.merge_enum]
    split_ifs with hzero
    · rw [hzero]
    · rfl
  case message => cases hdefault
  case map =>
    cases hdefault
    exact congrArg Value.map (OrderedMap.ofList_of_ordered hordered)
  all_goals
    cases hdefault
    rfl

/-- The default of a field changes no value that it is merged into. -/
theorem FieldKind.merge_default (hdefault : kind.default = some w)
    (h : kind.Suits registry v) : v.merge w = v := by
  rcases h with @⟨kind, v, h⟩ | @⟨name, n⟩ | _ | _ | _ | _ | _
  case scalar =>
    cases hdefault
    rw [Value.merge_of_fits _ (Value.fits_scalarDefault kind), Value.isDefault_scalarDefault]
    rfl
  case enum =>
    cases hdefault
    rfl
  case message => cases hdefault
  case map =>
    cases hdefault
    rfl
  all_goals
    cases hdefault
    rw [Value.merge, List.append_nil]

/-! ## Records -/

namespace Record

/-- The record with a later one merged into it. -/
def merge (record later : Record) : Record :=
  Value.mergeSlots record later

/-- Slots are merged one by one. -/
theorem getElem?_merge {record later : Record} (h : record.length = later.length) (i : Nat) :
    (record.merge later)[i]?
      = (record[i]?).map fun _ => Value.mergeSlot (record.value? i) (later.value? i) := by
  unfold merge
  induction record generalizing later i with
  | nil =>
    rw [List.eq_nil_of_length_eq_zero h.symm]
    rfl
  | cons slot slots ih =>
    rcases later with _ | ⟨slot', more⟩
    · cases h
    · rw [Value.mergeSlots]
      cases i with
      | zero => simp [value?]
      | succ i => simpa [value?] using ih (Nat.succ.inj h) i

variable {type : MessageType} {record : Record}

/-- The default of a field changes no slot that it is merged into. -/
theorem mergeSlot_default (h : Shaped registry type record) {i : Nat} {field : Field}
    (hfield : type.fields[i]? = some field) :
    Value.mergeSlot (record.value? i) field.kind.default = record.value? i := by
  rcases hdefault : field.kind.default with _ | w
  · exact Value.mergeSlot_none _
  · rcases hv : record.value? i with _ | v
    · obtain ⟨name, hkind⟩ := h.unset i field hfield hv
      rw [hkind] at hdefault
      cases hdefault
    · rw [Value.mergeSlot_some, FieldKind.merge_default hdefault (h.suits i field v hfield hv)]

/-- A record that is merged into the default record stays as it is. -/
theorem merge_defaultRecord (h : Shaped registry type record) :
    type.defaultRecord.merge record = record := by
  have hlength : type.defaultRecord.length = record.length := by
    rw [type.length_defaultRecord, h.length_eq]
  refine List.ext_getElem? fun i => ?_
  rw [getElem?_merge hlength]
  rcases hfield : type.fields[i]? with _ | field
  · rw [List.getElem?_eq_none_iff] at hfield
    rw [List.getElem?_eq_none_iff.2 (by simpa using hfield),
      List.getElem?_eq_none_iff.2 (by rw [h.length_eq]; exact hfield)]
    rfl
  · rw [(shaped_defaultRecord registry type).getElem? hfield, h.getElem? hfield,
      value?_defaultRecord hfield, Option.map_some]
    refine congrArg some ?_
    rcases hv : record.value? i with _ | w
    · obtain ⟨name, hkind⟩ := h.unset i field hfield hv
      rw [hkind]
      rfl
    · rcases hdefault : field.kind.default with _ | v
      · rfl
      · rw [Value.mergeSlot_some, FieldKind.merge_into_default hdefault
          (h.suits i field w hfield hv)]

end Record

end DynProto
