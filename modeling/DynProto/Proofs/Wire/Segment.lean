import DynProto.Proofs.Wire.Locality

/-!
# The fields that octets are made of

`segments` cuts octets into the fields that stand in them, one after the other, each with its number
and all its octets, the key included. This takes no message type: where a field ends is known from
its wire type alone, and a group is one field, whatever is inside. The cut is the only one
(`segments_eq_ok_iff`): octets are made of fields exactly if they are those of the fields put
together and each field, by itself, is read as one.
-/

namespace DynProto.Wire

/-- A field as it stands in octets. -/
structure Segment where
  /-- The field number. -/
  number : Nat
  /-- All octets of the field, those of its key included. -/
  bytes : Bytes
deriving DecidableEq, Repr

/-- The next field, of which only the number is told. -/
def Reader.segment : Reader Fault Nat :=
  Reader.key.andThen fun key => (Reader.skip skipDepth key).map fun _ => key.number

/-- The fields that octets are made of, or what is wrong with the first that is none. -/
def segments (bytes : Bytes) : Except Fault (List Segment) :=
  if bytes.isEmpty then .ok []
  else
    match _h : Reader.segment.run bytes with
    | .error fault => .error fault
    | .ok (number, rest) => do
      let more ← segments rest
      .ok (⟨number, bytes.take (bytes.length - rest.length)⟩ :: more)
termination_by bytes.length
decreasing_by exact Reader.segment.shorter _h

/-- The octets of fields, put together. -/
def joined (fields : List Segment) : Bytes :=
  fields.flatMap Segment.bytes

@[simp] theorem joined_nil : joined [] = [] :=
  rfl

@[simp] theorem joined_cons (field : Segment) (fields : List Segment) :
    joined (field :: fields) = field.bytes ++ joined fields :=
  List.flatMap_cons

/-- The octets of a field are read as one field with its number, whatever follows. -/
def Segment.Whole (field : Segment) : Prop :=
  Reader.segment.Reads field.bytes field.number

variable {bytes : Bytes} {field : Segment} {fields : List Segment}

/-- A field is taken off the front. -/
theorem Reader.local_segment : Reader.segment.Local :=
  Reader.local_key.andThen fun key => (Reader.local_skip skipDepth key).map _

/-- A field is whole exactly if nothing is left when it is read by itself. -/
theorem Segment.whole_iff :
    field.Whole ↔ Reader.segment.run field.bytes = .ok (field.number, []) := by
  constructor
  · intro h
    have hrun := h []
    rwa [List.append_nil] at hrun
  · intro hrun
    obtain ⟨front, hfront, hreads⟩ := Reader.local_segment _ _ _ hrun
    rw [List.append_nil] at hfront
    rw [Segment.Whole, hfront]
    exact hreads

/-- The field at the front is the first. -/
theorem segments_append (h : field.Whole) (rest : Bytes) :
    segments (field.bytes ++ rest) = (segments rest).map (field :: ·) := by
  have hempty : ¬ (field.bytes ++ rest).isEmpty = true := by
    simp [h.ne_nil]
  have hbytes : (field.bytes ++ rest).take ((field.bytes ++ rest).length - rest.length)
      = field.bytes := by
    rw [List.length_append, Nat.add_sub_cancel, List.take_left]
  rw [segments, if_neg hempty]
  split
  · rename_i hrun
    rw [h rest] at hrun
    cases hrun
  · rename_i hrun
    rw [h rest] at hrun
    cases hrun
    rw [hbytes]
    cases segments rest <;> rfl

/-- Whole fields that are put together are cut into these fields. -/
theorem segments_joined (h : ∀ field ∈ fields, field.Whole) :
    segments (joined fields) = .ok fields := by
  induction fields with
  | nil =>
    rw [segments]
    rfl
  | cons field fields ih =>
    obtain ⟨hfield, hfields⟩ := List.forall_mem_cons.1 h
    rw [joined_cons, segments_append hfield, ih hfields]
    rfl

/-- What octets are cut into are whole fields, and put together they are the octets. -/
theorem whole_of_segments (h : segments bytes = .ok fields) :
    joined fields = bytes ∧ ∀ field ∈ fields, field.Whole := by
  induction hn : bytes.length using Nat.strongRecOn generalizing bytes fields with
  | ind n ih =>
    rw [segments] at h
    split at h
    · rename_i hempty
      cases h
      exact ⟨(List.isEmpty_iff.1 hempty).symm, fun _ hmem => absurd hmem List.not_mem_nil⟩
    split at h
    · cases h
    rename_i number rest hrun
    obtain ⟨more, hmore, h⟩ := except_bind_eq_ok.1 h
    have hlt := Reader.segment.shorter hrun
    obtain ⟨rfl, hwhole⟩ := ih rest.length (by omega) hmore rfl
    obtain ⟨front, rfl, hfront⟩ := Reader.local_segment _ _ _ hrun
    rw [List.length_append, Nat.add_sub_cancel, List.take_left] at h
    cases h
    exact ⟨joined_cons _ _, List.forall_mem_cons.2 ⟨hfront, hwhole⟩⟩

/-- Octets are made of certain fields exactly if they are those of the fields put together and each
of these is a field by itself. -/
theorem segments_eq_ok_iff : segments bytes = .ok fields ↔
    joined fields = bytes ∧ ∀ field ∈ fields, field.Whole := by
  refine ⟨whole_of_segments, ?_⟩
  rintro ⟨rfl, h⟩
  exact segments_joined h

/-- Where octets of fields are cut off, there are first some whole fields; what remains, if anything
does, is the front of the next one, which lacks its end. -/
theorem exists_take_of_cut {cut : Bytes} (h : cut <+: joined fields) :
    ∃ k, cut = joined (fields.take k) ∨ ∃ field part, fields[k]? = some field ∧
      part <+: field.bytes ∧ part ≠ [] ∧ part ≠ field.bytes ∧
        cut = joined (fields.take k) ++ part := by
  induction fields generalizing cut with
  | nil => exact ⟨0, .inl (List.prefix_nil.1 h)⟩
  | cons field fields ih =>
    rw [joined_cons] at h
    by_cases hwhole : field.bytes <+: cut
    · obtain ⟨rest, rfl⟩ := hwhole
      obtain ⟨k, hk⟩ := ih ((List.prefix_append_right_inj field.bytes).1 h)
      refine ⟨k + 1, hk.imp (fun heq => ?_) ?_⟩
      · rw [heq, List.take_succ_cons, joined_cons]
      · rintro ⟨next, part, hnext, hpart, hnil, hne, rfl⟩
        refine ⟨next, part, hnext, hpart, hnil, hne, ?_⟩
        rw [List.take_succ_cons, joined_cons, List.append_assoc]
    · have hpart : cut <+: field.bytes :=
        (List.prefix_or_prefix_of_prefix h (List.prefix_append ..)).resolve_right hwhole
      refine ⟨0, ?_⟩
      by_cases hnil : cut = []
      · exact .inl hnil
      · refine .inr ⟨field, cut, rfl, hpart, hnil, ?_, rfl⟩
        rintro rfl
        exact hwhole (List.prefix_refl _)

end DynProto.Wire
