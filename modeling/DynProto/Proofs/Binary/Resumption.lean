import DynProto.Proofs.Binary.Evolution
import DynProto.Proofs.Wire.Segment

/-!
# Octets that are read in parts

A message is read field by field, and for any type the fields are those that the octets are made of
on the wire (`exists_occurs`): what is known of a type decides what a field means, but not where it
ends. So reading can stop behind any field and be resumed there (`merge_resumed`), and octets that
are cut off are accepted exactly where the cut is between two fields; anywhere else the field that
lacks its end is refused (`decode_truncated`).
-/

namespace DynProto.Binary

open Wire

variable {registry : Registry} {type : MessageType}

/-! ## Fields are taken off the front -/

/-- Content with the expected wire type is taken off the front, and any other is refused. -/
theorem local_expecting {α : Type} {r : Reader Wire.Fault α} (h : r.Local)
    (expected found : WireType) : (expecting expected found r).Local := by
  unfold expecting
  split_ifs
  · exact h
  · exact Reader.local_fail _

/-- So are elements, whether they are packed or not. -/
theorem local_elementsReader {r : Reader Wire.Fault Value} (h : r.Local)
    (expected found : WireType) (packable : Bool) :
    (elementsReader expected found packable r).Local := by
  unfold elementsReader
  split_ifs
  · exact h.packed id
  · exact (local_expecting h expected found).map _

/-- The content of a field is taken off the front. -/
theorem local_contentReader (index : Nat) (wireType : WireType) (kind : FieldKind) :
    (contentReader index wireType kind).Local := by
  have henum : enumReader.Local := (Reader.local_varint.map _).map _
  have hbody : Reader.body.Local := Reader.local_block _
  rcases kind with ⟨kind, _ | _⟩ | ⟨name, _ | _⟩ | ⟨name, repeated⟩ | ⟨key, value⟩
  case scalar.false => exact (local_expecting (Scalar.local_reader kind) _ _).map _
  case scalar.true => exact (local_elementsReader (Scalar.local_reader kind) _ _ _).map _
  case enum.false => exact (local_expecting henum _ _).map _
  case enum.true => exact (local_elementsReader henum _ _ _).map _
  case message => exact (local_expecting hbody _ _).map _
  case map => exact (local_expecting hbody _ _).map _

/-- A field is taken off the front, whether the type has it or not. -/
theorem local_fieldReader (type : MessageType) : (fieldReader type).Local := by
  refine Reader.local_key.andThen fun key => ?_
  split
  · exact local_contentReader _ _ _
  · exact (Reader.local_skip skipDepth key).map _

/-! ## What occurs in octets are their fields -/

/-- A field of octets is read, for a type, as a field that occurs. -/
structure Occurs (type : MessageType) (field : Segment) (occurrence : Occurrence) : Prop where
  /-- It is a field whatever the type. -/
  whole : field.Whole
  /-- The type reads its octets and no others. -/
  reads : (fieldReader type).Reads field.bytes occurrence
  /-- It occurs at the place that its number leads to, or is unknown. -/
  place?_eq : occurrence.place? = type.indexOfNumber? field.number

/-- What a type reads as a field is a field on the wire, with the number that the type goes by. -/
theorem exists_occurs_of_run {bytes rest : Bytes} {occurrence : Occurrence}
    (h : (fieldReader type).run bytes = .ok (occurrence, rest)) :
    ∃ field, bytes = field.bytes ++ rest ∧ Occurs type field occurrence := by
  obtain ⟨front, rfl, hfront⟩ := local_fieldReader type _ _ _ h
  obtain ⟨key, content, hkey, hcontent⟩ := run_fieldReader_eq_ok.1 h
  have hskip : (Reader.skip skipDepth key).run content = .ok ((), rest) ∧
      occurrence.place? = type.indexOfNumber? key.number := by
    rcases hcontent with ⟨index, field, hindex, _, hread⟩ | ⟨hindex, hskip, rfl⟩
    · exact ⟨run_skip (skips_contentReader _ _ _ _ _ _ hread),
        (moveTo_of_contentReader hread).1.trans hindex.symm⟩
    · exact ⟨hskip, hindex.symm⟩
  have hsegment : Reader.segment.run (front ++ rest) = .ok (key.number, rest) :=
    except_bind_eq_ok.2 ⟨_, hkey, Reader.run_map_eq_ok.2 ⟨(), hskip.1, rfl⟩⟩
  obtain ⟨front', hfront', hwhole⟩ := Reader.local_segment _ _ _ hsegment
  obtain rfl := List.append_cancel_right hfront'
  exact ⟨⟨key.number, front⟩, rfl, hwhole, hfront, hskip.2⟩

/-- What occurs in octets that can be read to their end are the fields that they are made of. -/
theorem exists_occurs {bytes : Bytes} (h : (occurrences type bytes).2 = none) :
    ∃ fields, segments bytes = .ok fields ∧
      List.Forall₂ (Occurs type) fields (occurrences type bytes).1 := by
  suffices hcut : ∃ fields, joined fields = bytes ∧
      List.Forall₂ (Occurs type) fields (occurrences type bytes).1 by
    obtain ⟨fields, hjoined, hoccurs⟩ := hcut
    refine ⟨fields, segments_eq_ok_iff.2 ⟨hjoined, fun field hfield => ?_⟩, hoccurs⟩
    obtain ⟨_, _, hoccurs⟩ := exists_of_forall₂ hoccurs hfield
    exact hoccurs.whole
  induction hn : bytes.length using Nat.strongRecOn generalizing bytes with
  | ind n ih =>
    rcases hrun : (fieldReader type).run bytes with fault | ⟨occurrence, rest⟩
    · rw [occurrences_eq, hrun] at h ⊢
      split_ifs at h ⊢ with hempty
      exact ⟨[], (List.isEmpty_iff.1 hempty).symm, .nil⟩
    · rw [occurrences_of_run hrun] at h ⊢
      have hlt := (fieldReader type).shorter hrun
      obtain ⟨fields, hjoined, hoccurs⟩ := ih rest.length (by omega) h rfl
      obtain ⟨field, rfl, hfield⟩ := exists_occurs_of_run hrun
      exact ⟨field :: fields, by rw [joined_cons, hjoined], .cons hfield hoccurs⟩

/-- The fields at the front occur, whatever follows. -/
theorem occurrences_joined {fields : List Segment} {occurring : List Occurrence}
    (h : List.Forall₂ (Occurs type) fields occurring) (rest : Bytes) :
    occurrences type (joined fields ++ rest)
      = (occurring ++ (occurrences type rest).1, (occurrences type rest).2) := by
  induction h with
  | nil => rfl
  | @cons field occurrence fields occurring hfield _ ih =>
    have hrun := hfield.reads (joined fields ++ rest)
    rw [joined_cons, List.append_assoc, occurrences_of_run hrun, ih]
    rfl

/-! ## Reading in parts -/

variable {step : Record → Occurrence → Except CodecError Record} {record next : Record}

/-- The fields at the front are applied first. -/
theorem foldFields_joined_append {fields : List Segment} {occurring : List Occurrence}
    (h : List.Forall₂ (Occurs type) fields occurring) (record : Record) (rest : Bytes) :
    foldFields type step record (joined fields ++ rest)
      = occurring.foldlM step record >>= fun next => foldFields type step next rest :=
  foldFields_of_occurrences (occurrences_joined h rest) record

/-- Nothing remains to be read from no octets. -/
theorem foldFields_nil (record : Record) : foldFields type step record [] = .ok record := by
  unfold foldFields
  rw [occurrences_nil]
  rfl

/-- Fields by themselves are applied one after the other. -/
theorem foldFields_joined {fields : List Segment} {occurring : List Occurrence}
    (h : List.Forall₂ (Occurs type) fields occurring) (record : Record) :
    foldFields type step record (joined fields) = occurring.foldlM step record := by
  have hall : foldFields type step record (joined fields ++ []) = _ :=
    foldFields_joined_append h record []
  simp only [List.append_nil, foldFields_nil] at hall
  rw [hall]
  cases occurring.foldlM step record <;> rfl

/-- A field by itself is applied. -/
theorem foldFields_of_occurs {field : Segment} {occurrence : Occurrence}
    (h : Occurs type field occurrence) (record : Record) :
    foldFields type step record field.bytes = step record occurrence := by
  have hall : foldFields type step record (joined [field]) = _ :=
    foldFields_joined (.cons h .nil) record
  rw [joined_cons, joined_nil, List.append_nil] at hall
  rw [hall, List.foldlM_cons]
  cases step record occurrence <;> rfl

/-- Applying fields is merging their octets one field at a time. -/
theorem foldlM_of_occurs {fields : List Segment} {occurring : List Occurrence}
    (h : List.Forall₂ (Occurs type) fields occurring) (record : Record) :
    occurring.foldlM step record
      = fields.foldlM (fun record field => foldFields type step record field.bytes) record := by
  induction h generalizing record with
  | nil => rfl
  | cons hfield _ ih =>
    rw [List.foldlM_cons, List.foldlM_cons, foldFields_of_occurs hfield]
    exact congrArg _ (funext ih)

/-! ## Octets that are continued -/

/-- Octets that were read to their end can be continued: what follows is read into the result. -/
theorem foldFields_resumed {front : Bytes} (h : foldFields type step record front = .ok next)
    (back : Bytes) :
    foldFields type step record (front ++ back) = foldFields type step next back := by
  obtain ⟨hfault, hfold⟩ := foldFields_eq_ok_iff.1 h
  obtain ⟨fields, hfields, hoccurs⟩ := exists_occurs hfault
  obtain ⟨rfl, _⟩ := segments_eq_ok_iff.1 hfields
  rw [foldFields_joined_append hoccurs, hfold]
  rfl

/-- Where the front of some octets is read into a record, the whole is read as the rest is into the
result, with the same record or the same error. -/
theorem merge_resumed (registry : Registry) (type : MessageType) (front back : Bytes) :
    (∀ levels record next, merge registry levels type record front = .ok next →
      merge registry levels type record (front ++ back) = merge registry levels type next back) ∧
    ∀ record, decode registry type front = .ok record → decode registry type (front ++ back)
      = merge registry (registry.options.recursionLimit.toNat + 1) type record back := by
  have hmerge : ∀ levels record next, merge registry levels type record front = .ok next →
      merge registry levels type record (front ++ back)
        = merge registry levels type next back := by
    intro levels record next h
    cases levels with
    | zero => cases h
    | succ levels => exact foldFields_resumed h back
  exact ⟨hmerge, fun record h => hmerge _ _ record h⟩

/-- What is read of two trees whose octets are put together is what is read of the second one after
the first. On lower levels and into a tree that is there, a fault behind a child is the fault of the
octets behind the child. -/
theorem merge_resumed_trees :
    decode (treeRegistry {}) treeType ([8, 7, 18, 2, 8, 1] ++ [8, 9, 18, 2, 8, 2])
        = merge (treeRegistry {}) 101 treeType
          [some (.i32 7),
            some (.list [.message [some (.i32 1), some (.list []), some (.map [])]]),
            some (.map [])] [8, 9, 18, 2, 8, 2] ∧
      merge (treeRegistry {}) 2 treeType [some (.i32 7), some (.list []), some (.map [])]
          ([18, 2, 8, 1] ++ [18, 4, 18, 2])
        = .error (.decode "Tree" (.wire (.bodyOverrun 4))) := by
  constructor
  · exact (merge_resumed (treeRegistry {}) treeType _ _).2 _ (by cbv)
  · refine ((merge_resumed (treeRegistry {}) treeType _ _).1 _ _
      [some (.i32 7), some (.list [.message [some (.i32 1), some (.list []), some (.map [])]]),
        some (.map [])] (by cbv)).trans ?_
    cbv

/-! ## Octets that are cut off -/

/-- No field occurs in octets of a field that lack their end, and something is wrong with them. -/
theorem exists_fault_of_part {field : Segment} {occurrence : Occurrence}
    (h : Occurs type field occurrence) {part : Bytes} (hpart : part <+: field.bytes)
    (hnil : part ≠ []) (hne : part ≠ field.bytes) :
    ∃ fault, occurrences type part = ([], some fault) := by
  obtain ⟨fault, hrun⟩ := (local_fieldReader type).exists_error_of_cut h.reads hpart hne
  refine ⟨fault, ?_⟩
  rw [occurrences_eq, hrun, if_neg (by simpa using hnil)]

/-- Of fields that can be applied, the first ones can be. -/
theorem exists_foldFields_take {fields : List Segment} {occurring : List Occurrence}
    (h : List.Forall₂ (Occurs type) fields occurring)
    (hfold : occurring.foldlM step record = .ok next) (k : Nat) :
    ∃ middle, foldFields type step record (joined (fields.take k)) = .ok middle ∧
      (occurring.take k).foldlM step record = .ok middle := by
  rw [← List.take_append_drop k occurring, List.foldlM_append] at hfold
  obtain ⟨middle, hmiddle, _⟩ := except_bind_eq_ok.1 hfold
  exact ⟨middle, (foldFields_joined (List.forall₂_take k h) record).trans hmiddle, hmiddle⟩

/-- Where fields can be applied, octets that are cut off within one of them are refused, whatever
was applied before the cut. -/
theorem exists_fault_of_cut {fields : List Segment} {occurring : List Occurrence}
    (h : List.Forall₂ (Occurs type) fields occurring)
    (hfold : occurring.foldlM step record = .ok next) {cut : Bytes} (hcut : cut <+: joined fields)
    (hwithin : ∀ k, cut ≠ joined (fields.take k)) :
    ∃ fault, foldFields type step record cut = .error (.decode type.name (.wire fault)) := by
  obtain ⟨k, heq | ⟨field, part, hfield, hpart, hnil, hne, rfl⟩⟩ := exists_take_of_cut hcut
  · exact absurd heq (hwithin k)
  obtain ⟨occurrence, _, hoccurs⟩ := exists_of_forall₂ h (List.mem_of_getElem? hfield)
  obtain ⟨fault, hfault⟩ := exists_fault_of_part hoccurs hpart hnil hne
  obtain ⟨middle, _, hmiddle⟩ := exists_foldFields_take h hfold k
  refine ⟨fault, ?_⟩
  rw [foldFields_joined_append (List.forall₂_take k h), hmiddle]
  show foldFields type step middle part = _
  unfold foldFields
  rw [hfault]
  rfl

/-- Where octets are accepted, a front of them is accepted exactly if it ends between two of their
fields, or holds none or all; it is then read as the fields before the cut, merged one by one. Any
other front is refused as no sequence of fields. -/
theorem decode_truncated {bytes : Bytes} {record : Record}
    (h : decode registry type bytes = .ok record) :
    ∃ fields, segments bytes = .ok fields ∧ joined fields = bytes ∧ ∀ cut, cut <+: bytes →
      ((∃ result, decode registry type cut = .ok result) ↔
        ∃ k, cut = joined (fields.take k)) ∧
      (∀ k, cut = joined (fields.take k) → decode registry type cut
        = (fields.take k).foldlM (fun record field =>
            merge registry (registry.options.recursionLimit.toNat + 1) type record field.bytes)
          type.defaultRecord) ∧
      ((∀ k, cut ≠ joined (fields.take k)) →
        ∃ fault, decode registry type cut = .error (.decode type.name (.wire fault))) := by
  obtain ⟨hfault, hfold⟩ := foldFields_eq_ok_iff.1 h
  obtain ⟨fields, hfields, hoccurs⟩ := exists_occurs hfault
  obtain ⟨rfl, _⟩ := segments_eq_ok_iff.1 hfields
  refine ⟨fields, hfields, rfl, fun cut hcut => ⟨⟨?_, ?_⟩, ?_, ?_⟩⟩
  · rintro ⟨result, hresult⟩
    by_contra hwithin
    rw [not_exists] at hwithin
    obtain ⟨fault, hcut⟩ := exists_fault_of_cut hoccurs hfold hcut hwithin
    have hboth := hcut.symm.trans hresult
    cases hboth
  · rintro ⟨k, rfl⟩
    obtain ⟨result, hresult, _⟩ := exists_foldFields_take hoccurs hfold k
    exact ⟨result, hresult⟩
  · rintro k rfl
    have hfront := List.forall₂_take k hoccurs
    exact (foldFields_joined hfront _).trans (foldlM_of_occurs hfront _)
  · exact exists_fault_of_cut hoccurs hfold hcut

/-- The octets of a tree with two children, and with a group in them that trees do not have. -/
def groupedTree : Bytes :=
  [8, 7, 43, 8, 1, 44, 18, 2, 8, 1, 18, 0]

/-- The tree is read without the group. -/
theorem decode_groupedTree : decode (treeRegistry {}) treeType groupedTree
    = .ok [some (.i32 7),
        some (.list [.message [some (.i32 1), some (.list []), some (.map [])],
          .message [some (.i32 0), some (.list []), some (.map [])]]),
        some (.map [])] := by
  have hlabel : (fieldReader treeType).run groupedTree
      = .ok (.value 0 (.i32 7), [43, 8, 1, 44, 18, 2, 8, 1, 18, 0]) := by cbv
  have hgroup : (fieldReader treeType).run [43, 8, 1, 44, 18, 2, 8, 1, 18, 0]
      = .ok (.unknown, [18, 2, 8, 1, 18, 0]) := by cbv
  have hchild : (fieldReader treeType).run [18, 2, 8, 1, 18, 0]
      = .ok (.nested 1 "Tree" true [8, 1], [18, 0]) := by cbv
  have hsecond : (fieldReader treeType).run [18, 0] = .ok (.nested 1 "Tree" true [], []) := by cbv
  refine foldFields_eq_ok_iff.2 ?_
  rw [occurrences_of_run hlabel, occurrences_of_run hgroup, occurrences_of_run hchild,
    occurrences_of_run hsecond, occurrences_nil]
  exact ⟨rfl, by cbv⟩

/-- The group is one field of the octets. -/
theorem segments_groupedTree : segments groupedTree
    = .ok [⟨1, [8, 7]⟩, ⟨5, [43, 8, 1, 44]⟩, ⟨2, [18, 2, 8, 1]⟩, ⟨2, [18, 0]⟩] := by
  refine segments_eq_ok_iff.2 ⟨rfl, ?_⟩
  simp only [List.forall_mem_cons, Segment.whole_iff]
  exact ⟨by cbv, by cbv, by cbv, by cbv, nofun⟩

/-- A front of the octets is accepted if it ends behind the group, but not if it ends within. -/
theorem decode_truncated_groupedTree :
    (∃ result, decode (treeRegistry {}) treeType [8, 7, 43, 8, 1, 44] = .ok result) ∧
      ∃ fault, decode (treeRegistry {}) treeType [8, 7, 43, 8, 1]
        = .error (.decode "Tree" (.wire fault)) := by
  obtain ⟨fields, hfields, _, hcuts⟩ := decode_truncated decode_groupedTree
  rw [segments_groupedTree] at hfields
  cases hfields
  constructor
  · exact (hcuts [8, 7, 43, 8, 1, 44] (by decide)).1.2 ⟨2, rfl⟩
  · refine (hcuts [8, 7, 43, 8, 1] (by decide)).2.2 fun k => ?_
    rcases k with _ | _ | _ | _ | k <;> simp

end DynProto.Binary
