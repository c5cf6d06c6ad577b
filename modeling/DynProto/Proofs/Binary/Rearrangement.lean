import DynProto.Proofs.Binary.Reordering

/-!
# Fields declared in another order

Two types of one name may declare the same fields in different orders (`MessageType.Rearranges`).
The slots of a record follow the order in which the fields are declared, so the records of the two
types differ in the order of their slots (`Record.Rearranged`), but octets know fields by number
only. The writer goes by the numbers, and the fields with their slots in the order of the numbers
are one list for both types, because the numbers are distinct (`ordered_eq`). The reader looks for
each number in the declared list, and what is read is the same up to the place it is put at
(`occurrences_rearranged`, `apply_rearranged`). Errors are the same on either way.
-/

namespace DynProto

/-! ## Rearranged types and records -/

/-- Two types of one name with the same fields, told apart by their numbers, in whatever orders. -/
structure MessageType.Rearranges (source target : MessageType) : Prop where
  /-- The name is the same. -/
  name_eq : target.name = source.name
  /-- The fields are the same. -/
  perm : target.fields.Perm source.fields
  /-- No two fields have one number. -/
  nodup : (source.fields.map Field.number).Nodup

/-- Records of two types with a slot for each field, in which each field has the same slot. -/
structure Record.Rearranged (source target : MessageType) (record record' : Record) : Prop where
  /-- There is a slot for each field of the first type. -/
  length_eq : record.length = source.fields.length
  /-- There is a slot for each field of the second type. -/
  length_eq' : record'.length = target.fields.length
  /-- The fields of both types come with the same slots. -/
  perm : (target.fields.zip record').Perm (source.fields.zip record)

namespace MessageType.Rearranges

variable {source target : MessageType}

/-- The fields are told apart in the second type as well. -/
theorem nodup_target (h : source.Rearranges target) : (target.fields.map Field.number).Nodup :=
  (h.perm.map Field.number).nodup_iff.2 h.nodup

/-- Types with the same fields are compatible. -/
theorem compatible (h : source.Rearranges target) : source.Compatible target where
  nodup_source := h.nodup
  nodup_target := h.nodup_target
  kind_eq f hf g hg hnumber := by
    rw [List.inj_on_of_nodup_map h.nodup hf (h.perm.mem_iff.1 hg) hnumber]

/-- The types know the same numbers. -/
theorem indexOfNumber?_eq_none_iff (h : source.Rearranges target) {number : Nat} :
    target.indexOfNumber? number = none ↔ source.indexOfNumber? number = none := by
  simp only [indexOfNumber?_eq_none, h.perm.mem_iff]

end MessageType.Rearranges

namespace Record

variable {source target type : MessageType} {record record' : Record}

/-- The slot of each field is found by its number. -/
theorem zip_eq_map (hnodup : (type.fields.map Field.number).Nodup)
    (hlength : record.length = type.fields.length) :
    type.fields.zip record = type.fields.map fun field =>
      (field, (type.indexOfNumber? field.number).elim field.kind.default record.value?) := by
  refine List.ext_getElem? fun i => ?_
  rw [List.getElem?_map]
  rcases hfield : type.fields[i]? with _ | field
  · rw [List.getElem?_eq_none_iff] at hfield
    exact List.getElem?_eq_none (by rw [List.length_zip]; omega)
  · have hlt : i < record.length := by
      rw [hlength]
      exact (List.getElem?_eq_some_iff.1 hfield).1
    rw [Option.map_some, MessageType.indexOfNumber?_of_nodup hnodup hfield, Option.elim_some,
      List.getElem?_zip_eq_some]
    exact ⟨hfield, by rw [value?, List.getElem?_eq_getElem hlt]; rfl⟩

/-- Every record with a slot for each field has a rearranged one. -/
theorem rearranged_recast (h : source.Rearranges target)
    (hlength : record.length = source.fields.length) :
    Rearranged source target record (record.recast source target) where
  length_eq := hlength
  length_eq' := List.length_map _
  perm := by
    rw [zip_eq_map h.nodup hlength, recast, ← List.map_prod_left_eq_zip]
    exact h.perm.map _

/-- There is only one rearranged record, since no field comes twice. -/
theorem Rearranged.eq_recast (h : source.Rearranges target)
    (hrecord : Rearranged source target record record') :
    record' = record.recast source target := by
  have hslot : ∀ pair ∈ target.fields.zip record',
      pair.2 = (source.indexOfNumber? pair.1.number).elim pair.1.kind.default record.value? := by
    intro pair hpair
    have hmem := hrecord.perm.mem_iff.1 hpair
    rw [zip_eq_map h.nodup hrecord.length_eq] at hmem
    obtain ⟨field, _, rfl⟩ := List.mem_map.1 hmem
    rfl
  calc record' = (target.fields.zip record').map Prod.snd :=
        (List.map_snd_zip hrecord.length_eq'.le).symm
    _ = ((target.fields.zip record').map Prod.fst).map fun field =>
          (source.indexOfNumber? field.number).elim field.kind.default record.value? := by
        rw [List.map_map]
        exact List.map_congr_left hslot
    _ = record.recast source target := by
        rw [List.map_fst_zip hrecord.length_eq'.ge, recast]

end Record

namespace Binary

open Wire

variable {registry : Registry} {source target type : MessageType} {record record' : Record}
  {bytes : Bytes}

/-! ## Writing -/

/-- The fields of a record with their slots, in the order of the numbers. -/
def ordered (type : MessageType) (record : Record) : List (Option (Field × Option Value)) :=
  type.wireOrder.map fun i => (type.fields.zip record)[i]?

/-- The number of a field that comes with its slot. -/
def orderedNumber (entry : Option (Field × Option Value)) : Nat :=
  entry.elim 0 fun pair => pair.1.number

/-- Each field comes once with its slot. -/
theorem ordered_perm (hlength : record.length = type.fields.length) :
    (ordered type record).Perm ((type.fields.zip record).map some) := by
  have hrange : (List.range type.fields.length).map (fun i => (type.fields.zip record)[i]?)
      = (type.fields.zip record).map some := by
    refine List.ext_getElem (by simp [hlength]) fun i _ hi => ?_
    rw [List.length_map] at hi
    simp [List.getElem?_eq_getElem hi]
  rw [← hrange]
  exact type.wireOrder_perm.map _

/-- The numbers ascend. -/
theorem ordered_sorted (hlength : record.length = type.fields.length) :
    (ordered type record).Pairwise fun a b => orderedNumber a ≤ orderedNumber b := by
  have hnumber : ∀ i, orderedNumber (type.fields.zip record)[i]? = type.numberAt i := by
    intro i
    have hfield : type.fields[i]? = ((type.fields.zip record)[i]?).map Prod.fst := by
      rw [← List.getElem?_map, List.map_fst_zip hlength.ge]
    rw [MessageType.numberAt, hfield]
    cases (type.fields.zip record)[i]? <;> rfl
  refine List.pairwise_map.2 (type.wireOrder_sorted.imp fun {i j} hle => ?_)
  rwa [hnumber, hnumber]

/-- Rearranged records have the same fields and slots in the order of the numbers. -/
theorem ordered_eq (h : source.Rearranges target)
    (hrecord : Record.Rearranged source target record record') :
    ordered target record' = ordered source record := by
  have hperm : (ordered target record').Perm ((source.fields.zip record).map some) :=
    (ordered_perm hrecord.length_eq').trans (hrecord.perm.map some)
  have hperm' := ordered_perm hrecord.length_eq
  refine List.Perm.eq_of_pairwise (fun a b ha hb hab hba => ?_)
    (ordered_sorted hrecord.length_eq') (ordered_sorted hrecord.length_eq)
    (hperm.trans hperm'.symm)
  obtain ⟨⟨f, slot⟩, hf, rfl⟩ := List.mem_map.1 (hperm.mem_iff.1 ha)
  obtain ⟨⟨g, slot'⟩, hg, rfl⟩ := List.mem_map.1 (hperm'.mem_iff.1 hb)
  have hnodup : ((source.fields.zip record).map (Field.number ∘ Prod.fst)).Nodup := by
    rw [← List.map_map, List.map_fst_zip hrecord.length_eq.ge]
    exact h.nodup
  exact congrArg some (List.inj_on_of_nodup_map hnodup hf hg (Nat.le_antisymm hab hba))

/-- What a field that comes with its slot is written as: nothing if the slot is empty. -/
def orderedPiece (registry : Registry) (owner : String) (entry : Option (Field × Option Value)) :
    Except CodecError Bytes :=
  (entry.bind fun pair => pair.2.map (fieldPiece registry owner pair.1)).getD (.ok [])

/-- Place by place, the fields are written as they come with their slots. -/
theorem map_slotPiece (registry : Registry) (hlength : record.length = type.fields.length) :
    type.wireOrder.map (slotPiece registry type record)
      = (ordered type record).map (orderedPiece registry type.name) := by
  rw [ordered, List.map_map]
  refine List.map_congr_left fun i _ => ?_
  show slotPiece registry type record i
    = orderedPiece registry type.name (type.fields.zip record)[i]?
  unfold slotPiece orderedPiece
  rcases hpair : (type.fields.zip record)[i]? with _ | ⟨field, slot⟩
  · rw [List.getElem?_eq_none_iff, List.length_zip, hlength, Nat.min_self] at hpair
    rw [List.getElem?_eq_none hpair]
    rfl
  · obtain ⟨hfield, hslot⟩ := List.getElem?_zip_eq_some.1 hpair
    rw [hfield, Record.value?, hslot]
    rfl

/-- Rearranged records are written as the same octets, or cannot be written for the same reason. -/
theorem encode_rearranged (registry : Registry) (h : source.Rearranges target)
    (hrecord : Record.Rearranged source target record record') :
    encode registry target record' = encode registry source record := by
  rw [encode_eq_sequence hrecord.length_eq.le, encode_eq_sequence hrecord.length_eq'.le,
    map_slotPiece registry hrecord.length_eq, map_slotPiece registry hrecord.length_eq',
    ordered_eq h hrecord, h.name_eq]

/-! ## Reading -/

/-- Content that cannot be read as the content of a field cannot be read, for the same reason, as
the content of the field at another place. -/
theorem contentReader_eq_error {index : Nat} {wireType : WireType} {kind : FieldKind}
    {fault : Wire.Fault} (h : (contentReader index wireType kind).run bytes = .error fault)
    (place : Nat) : (contentReader place wireType kind).run bytes = .error fault := by
  rcases kind with ⟨kind, _ | _⟩ | ⟨name, _ | _⟩ | ⟨name, repeated⟩ | ⟨key, value⟩ <;>
    exact Reader.run_map_eq_error.2 (Reader.run_map_eq_error.1 h)

/-- Why the next field of a message cannot be read: its key cannot, or its content cannot be read by
its kind, or cannot be skipped. -/
theorem run_fieldReader_eq_error {fault : Wire.Fault} :
    (fieldReader type).run bytes = .error fault ↔
      Reader.key.run bytes = .error fault ∨
        ∃ key content, Reader.key.run bytes = .ok (key, content) ∧
          ((∃ index field, type.indexOfNumber? key.number = some index ∧
              type.fields[index]? = some field ∧
              (contentReader index key.wireType field.kind).run content = .error fault) ∨
            (type.indexOfNumber? key.number = none ∧
              (Reader.skip skipDepth key).run content = .error fault)) := by
  show (Reader.key.run bytes >>= _) = _ ↔ _
  rw [except_bind_eq_error, Prod.exists]
  refine or_congr_right (exists₂_congr fun key content => and_congr_right fun _ => ?_)
  rcases hindex : type.indexOfNumber? key.number with _ | index
  · simp [hindex, Reader.run_map_eq_error]
  · obtain ⟨field, hfield, _⟩ := MessageType.exists_of_indexOfNumber? hindex
    simp [hindex, hfield]

/-- Where no field can be read as one of the first type, none can be read as one of the second, for
the same reason. -/
theorem fieldReader_eq_error (h : source.Rearranges target) {fault : Wire.Fault}
    (hrun : (fieldReader source).run bytes = .error fault) :
    (fieldReader target).run bytes = .error fault := by
  rcases run_fieldReader_eq_error.1 hrun with hkey |
    ⟨key, content, hkey, ⟨i, f, hi, hf, hcontent⟩ | ⟨hi, hskip⟩⟩
  · exact run_fieldReader_eq_error.2 (.inl hkey)
  · obtain ⟨f', hf', hnumber⟩ := MessageType.exists_of_indexOfNumber? hi
    rw [hf] at hf'
    cases hf'
    obtain ⟨j, hj⟩ : ∃ j, target.indexOfNumber? key.number = some j := by
      rw [← Option.ne_none_iff_exists', ne_eq, h.indexOfNumber?_eq_none_iff, hi]
      simp
    obtain ⟨g, hg, hnumber'⟩ := MessageType.exists_of_indexOfNumber? hj
    have hkind := h.compatible.kind_eq f (List.mem_of_getElem? hf) g (List.mem_of_getElem? hg)
      (hnumber.trans hnumber'.symm)
    exact run_fieldReader_eq_error.2 (.inr
      ⟨key, content, hkey, .inl ⟨j, g, hj, hg, hkind ▸ contentReader_eq_error hcontent j⟩⟩)
  · exact run_fieldReader_eq_error.2 (.inr
      ⟨key, content, hkey, .inr ⟨h.indexOfNumber?_eq_none_iff.2 hi, hskip⟩⟩)

/-- The same fields occur, at the places that they have in the types, and the same is wrong behind
them. -/
theorem occurrences_rearranged (h : source.Rearranges target) (bytes : Bytes) :
    ∃ fields, occurrences target bytes = (fields, (occurrences source bytes).2) ∧
      List.Forall₂ (Occurrence.Recast source target) (occurrences source bytes).1 fields := by
  have hless : KnowsLess target source := fun _ => h.indexOfNumber?_eq_none_iff.2
  induction hn : bytes.length using Nat.strongRecOn generalizing bytes with
  | ind n ih =>
    rcases hbytes : bytes with _ | ⟨b, more⟩
    · rw [occurrences_nil, occurrences_nil]
      exact ⟨[], rfl, .nil⟩
    · rw [← hbytes]
      rcases hrun : (fieldReader source).run bytes with fault | ⟨occurrence, rest⟩
      · rw [occurrences_eq, occurrences_eq source, hrun, fieldReader_eq_error h hrun, hbytes]
        exact ⟨[], rfl, .nil⟩
      · obtain ⟨occurrence', hrun', hrecast⟩ :=
          fieldReader_recast h.compatible (fun _ => hless) hrun
        have hlt := (fieldReader source).shorter hrun
        obtain ⟨fields, hfields, hall⟩ := ih rest.length (by omega) rest rfl
        rw [occurrences_of_run hrun, occurrences_of_run hrun', hfields]
        exact ⟨occurrence' :: fields, rfl, .cons hrecast hall⟩

variable {nested : Nested} {occurrence occurrence' : Occurrence}

/-- A field changes the slot at its place in the same way for both types. -/
theorem exists_update_moveTo (nested : Nested) (registry : Registry)
    (hname : target.name = source.name) {i : Nat} (hplace : occurrence.place? = some i) (j : Nat) :
    ∃ change,
      (∀ record, apply nested registry source record occurrence
        = update source record i change) ∧
      ∀ record, apply nested registry target record (occurrence.moveTo j)
        = update target record j change := by
  obtain ⟨name, fields⟩ := source
  obtain ⟨_, fields'⟩ := target
  obtain rfl := hname
  cases occurrence <;> cases hplace <;> exact ⟨_, fun _ => rfl, fun _ => rfl⟩

/-- Applying a field to the recast record gives the recast record, or the same error. -/
theorem apply_rearranged (h : source.Rearranges target)
    (hlength : record.length = source.fields.length)
    (hrecast : Occurrence.Recast source target occurrence occurrence') :
    apply nested registry target (record.recast source target) occurrence'
      = (apply nested registry source record occurrence).map (Record.recast source target) := by
  rcases hrecast with _ | @⟨i, j, f, g, _, hf, hg, hnumber, hplace⟩ | @⟨i, f, _, hf, hnone, _⟩
  case unknown => rfl
  case moved =>
    have hlt : i < record.length := by
      rw [hlength]
      exact (List.getElem?_eq_some_iff.1 hf).1
    have hslot : record[i]? = some (record.value? i) := by
      rw [Record.value?, List.getElem?_eq_getElem hlt]
      rfl
    obtain ⟨change, hsource, htarget⟩ := exists_update_moveTo nested registry h.name_eq hplace j
    rw [hsource, htarget, update_of_getElem? hslot, update_of_getElem?
      (Record.getElem?_recast_of_number h.compatible hf hg hnumber)]
    rcases change (record.value? i) with error | v
    · rfl
    · exact congrArg Except.ok (Record.recast_set h.compatible hf hg hnumber hlt v).symm
  case dropped =>
    exact absurd rfl (MessageType.indexOfNumber?_eq_none.1 (h.indexOfNumber?_eq_none_iff.1 hnone) f
      (List.mem_of_getElem? hf))

/-- A field adds no slots. -/
theorem length_of_apply {next : Record}
    (h : apply nested registry type record occurrence = .ok next) :
    next.length = record.length := by
  rcases hplace : occurrence.place? with _ | i
  · rw [apply_of_place?_eq_none hplace] at h
    cases h
    rfl
  · obtain ⟨v, _, rfl, _⟩ := apply_at hplace h
    exact List.length_set

/-- Octets are read into the recast record as they are read into the record, or fail in the same
way. -/
theorem merge_rearranged (registry : Registry) (levels : Nat) (h : source.Rearranges target)
    (hlength : record.length = source.fields.length) (bytes : Bytes) :
    merge registry levels target (record.recast source target) bytes
      = (merge registry levels source record bytes).map (Record.recast source target) := by
  cases levels with
  | zero => rfl
  | succ levels =>
    obtain ⟨fields, hfields, hall⟩ := occurrences_rearranged h bytes
    have hstep : ∀ (record : Record) a b, record.length = source.fields.length →
        Occurrence.Recast source target a b →
        apply (merge registry levels) registry target (record.recast source target) b
          = (apply (merge registry levels) registry source record a).map
              (Record.recast source target) :=
      fun _ _ _ hs hrecast => apply_rearranged h hs hrecast
    have hfold := foldlM_image (fun _ _ _ hs hnext => (length_of_apply hnext).trans hs) hstep
      hall hlength
    rw [merge, merge, foldFields, foldFields, hfields]
    show (fields.foldlM _ _ >>= _) = Except.map _ (List.foldlM _ _ _ >>= _)
    rw [hfold, h.name_eq]
    rcases (occurrences source bytes).1.foldlM (apply (merge registry levels) registry source)
      record with error | last
    · rfl
    · rcases (occurrences source bytes).2 with _ | fault <;> rfl

/-- Octets are read as rearranged records, or cannot be read for the same reason. -/
theorem decode_rearranged (registry : Registry) (h : source.Rearranges target) (bytes : Bytes) :
    decode registry target bytes
      = (decode registry source bytes).map (Record.recast source target) := by
  rw [decode, decode, ← merge_rearranged registry _ h source.length_defaultRecord,
    Record.recast_defaultRecord h.compatible]

/-- Where two types of one name have the same fields, declared in different orders, the records of
one are those of the other with their slots rearranged. Rearranged records are written as the same
octets, and all octets are read as rearranged records; where one type fails, so does the other, with
the same error. -/
theorem codec_rearranged (registry : Registry) (h : source.Rearranges target) :
    (∀ record : Record, record.length = source.fields.length →
      ∃! record', Record.Rearranged source target record record') ∧
    (∀ record record', Record.Rearranged source target record record' →
      encode registry target record' = encode registry source record) ∧
    ∀ bytes,
      (∃ record record', decode registry source bytes = .ok record ∧
        decode registry target bytes = .ok record' ∧
        Record.Rearranged source target record record') ∨
      ∃ error, decode registry source bytes = .error error ∧
        decode registry target bytes = .error error := by
  refine ⟨fun record hlength => ?_, fun _ _ hrecord => encode_rearranged registry h hrecord,
    fun bytes => ?_⟩
  · exact ⟨_, Record.rearranged_recast h hlength, fun _ hrecord => hrecord.eq_recast h⟩
  · rw [decode_rearranged registry h]
    rcases hdecode : decode registry source bytes with error | record
    · exact .inr ⟨error, rfl, rfl⟩
    · have hlength := (regular_of_decode hdecode).holds.1.length_eq
      exact .inl ⟨record, _, rfl, rfl, Record.rearranged_recast h hlength⟩

/-- The type of notes with a rank, its fields declared in another order. -/
def turnedNoteType : MessageType where
  name := "RankedNote"
  fields := [⟨3, "text", none, .scalar .string false⟩, ⟨1, "id", none, .scalar .int32 false⟩,
    ⟨2, "rank", none, .scalar .uint32 false⟩]

/-- A note is written with the number and the rank before the text, and is read so, also where the
text is declared first. -/
theorem codec_rearranged_note :
    encode noteRegistry turnedNoteType [some (.string "a"), some (.i32 7), some (.u32 3)]
        = .ok [8, 7, 16, 3, 26, 1, 97] ∧
      decode noteRegistry turnedNoteType [8, 7, 16, 3, 26, 1, 97]
        = .ok [some (.string "a"), some (.i32 7), some (.u32 3)] := by
  have hturned : rankedNoteType.Rearranges turnedNoteType := ⟨rfl, by decide, by decide⟩
  have hrecord : Record.Rearranged rankedNoteType turnedNoteType
      [some (.i32 7), some (.u32 3), some (.string "a")]
      [some (.string "a"), some (.i32 7), some (.u32 3)] := by
    refine ⟨rfl, rfl, ?_⟩
    show ([_] ++ [_, _] : List (Field × Option Value)).Perm ([_, _] ++ [_])
    exact List.perm_append_comm
  obtain ⟨hunique, hencode, hdecode⟩ := codec_rearranged noteRegistry hturned
  constructor
  · rw [hencode _ _ hrecord]
    cbv
  · have hread : decode noteRegistry rankedNoteType [8, 7, 16, 3, 26, 1, 97]
        = .ok [some (.i32 7), some (.u32 3), some (.string "a")] := by cbv
    obtain ⟨_, record', hsource, htarget, hrecord'⟩ | ⟨_, hsource, _⟩ :=
      hdecode [8, 7, 16, 3, 26, 1, 97]
    · rw [hread] at hsource
      cases hsource
      rw [htarget, (hunique _ rfl).unique hrecord' hrecord]
    · rw [hread] at hsource
      cases hsource

end Binary

end DynProto
