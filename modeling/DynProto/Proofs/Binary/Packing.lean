import DynProto.Proofs.Binary.Reordering

/-!
# Packed and unpacked elements

The elements of a repeated field of numbers, truth values or enum values stand in octets as blocks
of several, or one by one; a list may be cut into chunks in any way, and each chunk may take either
form (`Chunk`). Whatever the form is, each field of octets adds some elements to the list in the
slot, in order and with none left out (`Chunk.exists_blocks`). Fields with other numbers may stand
between them, as they do between any fields. So it is always the whole list that is read
(`decode_chunks`).
-/

namespace DynProto.Binary

open Wire

/-! ## Chunks -/

/-- The octets of the number of an enum value. -/
def enumContent? : Value → Option Bytes
  | .enum n => some (Scalar.int32Content n)
  | _ => none

/-- A repeated field of a kind may be packed; an element has the wire type and the octets if it is
written by itself. -/
inductive Packs : FieldKind → WireType → (Value → Option Bytes) → Prop
  /-- A scalar kind that can be packed. -/
  | scalar {kind : Scalar} (h : kind.isPackable = true) :
    Packs (.scalar kind true) kind.wireType kind.content?
  /-- An enum. -/
  | enum {name : String} : Packs (.enum name true) .varint enumContent?

/-- Consecutive elements of a repeated field with a number, and the fields of octets that they are
written as. -/
inductive Chunk (number : Nat) (wireType : WireType) (content? : Value → Option Bytes)
    (vs : List Value) : List Segment → Prop
  /-- One block for all of them, which may be empty. -/
  | packed {contents : List Bytes}
    (h : List.Forall₂ (fun v content => content? v = some content) vs contents) :
    Chunk number wireType content? vs [⟨number, blockBytes number contents.flatten⟩]
  /-- One field for each of them. -/
  | unpacked {contents : List Bytes}
    (h : List.Forall₂ (fun v content => content? v = some content) vs contents) :
    Chunk number wireType content? vs
      (contents.map fun content => ⟨number, fieldBytes number wireType content⟩)

variable {registry : Registry} {type : MessageType} {index : Nat} {field : Field}
  {wireType : WireType} {content? : Value → Option Bytes} {kind : FieldKind}

/-! ## Elements that occur -/

/-- Elements are read in both forms by one reader, which undoes the writing of an element. -/
theorem Packs.exists_reader (h : Packs kind wireType content?) :
    ∃ r : Reader Wire.Fault Value,
      (∀ v content, content? v = some content → content.length < lengthBound →
        r.Reads content v) ∧
      ∀ index, contentReader index .delimited kind = (Reader.packed id r).map (.elements index) ∧
        contentReader index wireType kind = (r.map fun v => [v]).map (.elements index) := by
  rcases h with @⟨kind, hpackable⟩ | _
  case scalar =>
    refine ⟨kind.reader, fun v content => Scalar.reads_content, fun index => ⟨?_, ?_⟩⟩
    · rw [contentReader, elementsReader, hpackable]
      rfl
    · cases kind
      case string | bytes => cases hpackable
      all_goals rfl
  case enum =>
    refine ⟨enumReader, fun v content hcontent _ => ?_, fun index => ⟨rfl, rfl⟩⟩
    cases v <;> cases hcontent
    exact (Scalar.reads_int32 _).map rfl

/-- Contents that are written for elements are read as these. -/
theorem forall₂_reads {r : Reader Wire.Fault Value} {vs : List Value} {contents : List Bytes}
    (hread : ∀ v content, content? v = some content → content.length < lengthBound →
      r.Reads content v)
    (h : List.Forall₂ (fun v content => content? v = some content) vs contents)
    (hlength : ∀ content ∈ contents, content.length < lengthBound) :
    List.Forall₂ r.Reads contents vs := by
  induction h with
  | nil => exact .nil
  | cons hcontent _ ih =>
    obtain ⟨hfirst, hrest⟩ := List.forall_mem_cons.1 hlength
    exact .cons (hread _ _ hcontent hfirst) (ih hrest)

/-- Content of a field that is found occurs at its place. -/
theorem Found.occurs (h : Found type index field) {content : Bytes} {occurrence : Occurrence}
    (hcontent : (contentReader index wireType field.kind).Reads content occurrence) :
    Occurs type ⟨field.number, fieldBytes field.number wireType content⟩ occurrence := by
  have hplace := (moveTo_of_contentReader (hcontent [])).1
  have hrun := h.reads hcontent []
  obtain ⟨⟨number, bytes⟩, hbytes, hoccurs⟩ := exists_occurs_of_run hrun
  rw [List.append_nil, List.append_nil] at hbytes
  -- the number that stands in the octets is that of the field, since it leads to its place
  obtain ⟨found, hfound, hnumber⟩ :=
    MessageType.exists_of_indexOfNumber? (hoccurs.place?_eq.symm.trans hplace)
  rw [h.get] at hfound
  cases hfound
  cases hnumber
  rw [hbytes]
  exact hoccurs

/-- The fields of octets of a chunk are blocks of elements, which make up the chunk. -/
theorem Chunk.exists_blocks (hfound : Found type index field)
    (hkind : Packs field.kind wireType content?) {vs : List Value} {records : List Segment}
    (h : Chunk field.number wireType content? vs records)
    (hlength : ∀ record ∈ records, record.bytes.length < lengthBound) :
    ∃ blocks : List (List Value), blocks.flatten = vs ∧
      List.Forall₂ (Occurs type) records (blocks.map (.elements index)) := by
  obtain ⟨r, hread, hcontent⟩ := hkind.exists_reader
  obtain ⟨hblock, hsingle⟩ := hcontent index
  cases h with
  | @packed contents hcontents =>
    have hle := Nat.lt_of_le_of_lt (length_le_length_blockBytes field.number contents.flatten)
      (hlength _ List.mem_cons_self)
    have hreads := forall₂_reads hread hcontents fun content hmem =>
      Nat.lt_of_le_of_lt (List.sublist_flatten_of_mem hmem).length_le hle
    refine ⟨[vs], List.append_nil vs, .cons (hfound.occurs ?_) .nil⟩
    rw [hblock]
    exact (reads_packed id hreads hle).map rfl
  | @unpacked contents hcontents =>
    have hreads := forall₂_reads hread hcontents fun content hmem =>
      Nat.lt_of_le_of_lt (length_le_length_fieldBytes field.number wireType content)
        (hlength _ (List.mem_map_of_mem hmem))
    refine ⟨vs.map fun v => [v], List.flatMap_def.symm.trans (List.flatMap_singleton' vs), ?_⟩
    rw [List.map_map, List.forall₂_map_left_iff, List.forall₂_map_right_iff]
    refine hreads.imp fun content v hv => hfound.occurs ?_
    rw [hsingle]
    exact (hv.map rfl).map rfl

/-- So are the fields of octets of several chunks. -/
theorem exists_blocks (hfound : Found type index field)
    (hkind : Packs field.kind wireType content?) {chunks : List (List Value)}
    {records : List (List Segment)}
    (h : List.Forall₂ (Chunk field.number wireType content?) chunks records)
    (hlength : ∀ record ∈ records.flatten, record.bytes.length < lengthBound) :
    ∃ blocks : List (List Value), blocks.flatten = chunks.flatten ∧
      List.Forall₂ (Occurs type) records.flatten (blocks.map (.elements index)) := by
  induction h with
  | nil => exact ⟨[], rfl, .nil⟩
  | cons hchunk _ ih =>
    rw [List.flatten_cons, List.forall_mem_append] at hlength
    obtain ⟨front, hfront, hoccurs⟩ := hchunk.exists_blocks hfound hkind hlength.1
    obtain ⟨back, hback, hoccurs'⟩ := ih hlength.2
    refine ⟨front ++ back, by rw [List.flatten_append, hfront, hback, List.flatten_cons], ?_⟩
    rw [List.map_append]
    exact List.rel_append hoccurs hoccurs'

/-! ## Elements that are applied -/

variable {nested : Nested} {record last : Record}

/-- Blocks of elements are appended to the list in the slot. -/
theorem foldlM_elements (blocks : List (List Value)) {front : List Value}
    (hslot : record[index]? = some (some (.list front))) :
    (blocks.map (.elements index)).foldlM (apply nested registry type) record
      = .ok (record.set index (some (.list (front ++ blocks.flatten)))) := by
  induction blocks generalizing record front with
  | nil =>
    obtain ⟨hlt, hget⟩ := List.getElem?_eq_some_iff.1 hslot
    rw [List.flatten_nil, List.append_nil, ← hget, List.set_getElem_self]
    rfl
  | cons block blocks ih =>
    have hstep : apply nested registry type record (.elements index block)
        = .ok (record.set index (some (.list (front ++ block)))) :=
      update_of_getElem? hslot
    have hlt := (List.getElem?_eq_some_iff.1 hslot).1
    rw [List.map_cons, List.foldlM_cons, hstep]
    show (blocks.map (.elements index)).foldlM (apply nested registry type)
      (record.set index (some (.list (front ++ block)))) = _
    rw [ih (List.getElem?_set_self hlt), List.set_set, List.flatten_cons, List.append_assoc]

/-- The slot of a repeated field starts with no elements. -/
theorem Packs.default_eq (h : Packs kind wireType content?) : kind.default = some (.list []) := by
  rcases h with _ | _ <;> rfl

/-! ## Fields between them -/

/-- The fields of octets with other numbers, in their order. -/
def besides (number : Nat) (fields : List Segment) : List Segment :=
  fields.filter fun field => field.number ≠ number

/-- Fields of octets that stand in the same order for each number that the type knows are applied
with the same result. -/
theorem foldlM_of_numbered {fields fields' : List Segment} {occurring occurring' : List Occurrence}
    (h : List.Forall₂ (Occurs type) fields occurring)
    (h' : List.Forall₂ (Occurs type) fields' occurring')
    (hsame : ∀ number, numbered number fields' = numbered number fields)
    (hfold : occurring.foldlM (apply nested registry type) record = .ok last) :
    occurring'.foldlM (apply nested registry type) record = .ok last := by
  refine foldlM_reordered hfold fun i => ?_
  have hread := forall₂_fieldsAt h' i
  rw [filter_place_of_numbered (fun number _ => hsame number) i] at hread
  exact List.right_unique_forall₂' (Occurs.rightUnique type) hread (forall₂_fieldsAt h i)

/-- Putting the fields with a number behind all others keeps the order for each number. -/
theorem numbered_besides_append (number number' : Nat) (fields : List Segment) :
    numbered number' (besides number fields ++ numbered number fields)
      = numbered number' fields := by
  unfold numbered besides
  rw [List.filter_append, List.filter_filter, List.filter_filter]
  by_cases heq : number' = number
  · subst heq
    simp
  · have hother : ∀ field : Segment, field.number = number' → field.number ≠ number := by
      rintro field rfl
      exact heq
    have hnone : (fields.filter fun field =>
        decide (field.number = number') && decide (field.number = number)) = [] := by
      rw [List.filter_eq_nil_iff]
      intro field _
      simpa using hother field
    rw [hnone, List.append_nil]
    refine List.filter_congr fun field _ => ?_
    simpa using hother field

/-! ## Reading -/

/-- Fields with other numbers leave the slot as it is. -/
theorem getElem?_of_besides (hfound : Found type index field) {fields : List Segment}
    {others : List Occurrence}
    (h : List.Forall₂ (Occurs type) (besides field.number fields) others)
    (hfold : others.foldlM (apply nested registry type) record = .ok last) :
    last[index]? = record[index]? := by
  refine foldlM_preserves (fun next => next[index]? = record[index]?) ?_ rfl hfold
  intro before occurrence next hmem hbefore hnext
  obtain ⟨other, hother, hoccurs⟩ := exists_of_forall₂ h.flip hmem
  have hne : other.number ≠ field.number := by simpa using (List.mem_filter.1 hother).2
  refine (getElem?_of_apply ?_ hnext).trans hbefore
  rw [hoccurs.place?_eq]
  intro hplace
  obtain ⟨found, hget, hnumber⟩ := MessageType.exists_of_indexOfNumber? hplace
  rw [hfound.get] at hget
  cases hget
  exact hne hnumber.symm

/-- Fields of octets, of which those with the number of a field are blocks of elements, are applied
as the others are, and all elements are appended to the list in the slot. -/
theorem foldlM_besides (hfound : Found type index field) {fields : List Segment}
    {occurring others : List Occurrence} {blocks : List (List Value)} {front : List Value}
    (hslot : record[index]? = some (some (.list front)))
    (h : List.Forall₂ (Occurs type) fields occurring)
    (hothers : List.Forall₂ (Occurs type) (besides field.number fields) others)
    (hblocks : List.Forall₂ (Occurs type) (numbered field.number fields)
      (blocks.map (.elements index))) :
    occurring.foldlM (apply nested registry type) record = .ok last ↔
      ∃ next, others.foldlM (apply nested registry type) record = .ok next ∧
        next.set index (some (.list (front ++ blocks.flatten))) = last := by
  have hbehind := List.rel_append hothers hblocks
  have hsame := fun number => numbered_besides_append field.number number fields
  have hiff : occurring.foldlM (apply nested registry type) record = .ok last ↔
      (others ++ blocks.map (Occurrence.elements index)).foldlM (apply nested registry type) record
        = .ok last :=
    ⟨foldlM_of_numbered h hbehind hsame,
      foldlM_of_numbered hbehind h fun number => (hsame number).symm⟩
  rw [hiff, List.foldlM_append, except_bind_eq_ok]
  refine exists_congr fun next => and_congr_right fun hnext => ?_
  rw [foldlM_elements blocks ((getElem?_of_besides hfound hothers hnext).trans hslot),
    Except.ok.injEq]

/-- Whole fields of octets that are accepted occur one by one. -/
theorem exists_occurs_of_decode {fields : List Segment} (hwhole : ∀ field ∈ fields, field.Whole)
    (h : decode registry type (joined fields) = .ok record) :
    ∃ occurring, List.Forall₂ (Occurs type) fields occurring := by
  obtain ⟨fields', hfields', hoccurs⟩ := exists_occurs (foldFields_eq_ok_iff.1 h).1
  rw [segments_joined hwhole] at hfields'
  cases hfields'
  exact ⟨_, hoccurs⟩

/-- A field of octets has the number or is one of the others. -/
theorem forall_of_besides {P : Segment → Prop} {number : Nat} {fields : List Segment}
    (hnumbered : ∀ record ∈ numbered number fields, P record)
    (hothers : ∀ other ∈ besides number fields, P other) : ∀ record ∈ fields, P record := by
  intro record hrecord
  by_cases hnumber : record.number = number
  · exact hnumbered record (List.mem_filter.2 ⟨hrecord, by simpa using hnumber⟩)
  · exact hothers record (List.mem_filter.2 ⟨hrecord, by simpa using hnumber⟩)

/-- Octets whose fields with the number of a repeated field are blocks of elements are accepted
exactly if the other fields are by themselves, and the elements are then in the slot. -/
theorem decode_besides (hfound : Found type index field)
    (hkind : Packs field.kind wireType content?) {fields : List Segment}
    {blocks : List (List Value)}
    (hwhole : ∀ other ∈ besides field.number fields, other.Whole)
    (hblocks : List.Forall₂ (Occurs type) (numbered field.number fields)
      (blocks.map (.elements index))) :
    decode registry type (joined fields) = .ok last ↔
      ∃ record, decode registry type (joined (besides field.number fields)) = .ok record ∧
        record.set index (some (.list blocks.flatten)) = last := by
  have hslot : type.defaultRecord[index]? = some (some (.list [])) := by
    rw [MessageType.defaultRecord, List.getElem?_map, hfound.get, Option.map_some,
      hkind.default_eq]
  have hknown : ∀ record ∈ numbered field.number fields, ∃ block, Occurs type record block := by
    intro record hrecord
    obtain ⟨block, _, hoccurs⟩ := exists_of_forall₂ hblocks hrecord
    exact ⟨block, hoccurs⟩
  -- it is enough that the others occur, and either side says so
  have hiff : ∀ {others}, List.Forall₂ (Occurs type) (besides field.number fields) others →
      (decode registry type (joined fields) = .ok last ↔
        ∃ record, decode registry type (joined (besides field.number fields)) = .ok record ∧
          record.set index (some (.list blocks.flatten)) = last) := by
    intro others hothers
    obtain ⟨occurring, hall⟩ : ∃ occurring, List.Forall₂ (Occurs type) fields occurring := by
      refine exists_forall₂ (forall_of_besides hknown fun other hother => ?_)
      obtain ⟨occurrence, _, hoccurs⟩ := exists_of_forall₂ hothers hother
      exact ⟨occurrence, hoccurs⟩
    unfold decode merge
    rw [foldFields_joined hall, foldFields_joined hothers]
    exact foldlM_besides hfound hslot hall hothers hblocks
  constructor
  · intro h
    have hall : ∀ record ∈ fields, record.Whole :=
      forall_of_besides (fun record hrecord => (hknown record hrecord).elim fun _ => Occurs.whole)
        hwhole
    obtain ⟨occurring, hoccurs⟩ := exists_occurs_of_decode hall h
    obtain ⟨others, hothers⟩ : ∃ others,
        List.Forall₂ (Occurs type) (besides field.number fields) others := by
      refine exists_forall₂ fun other hother => ?_
      obtain ⟨occurrence, _, hother⟩ := exists_of_forall₂ hoccurs (List.mem_filter.1 hother).1
      exact ⟨occurrence, hother⟩
    exact (hiff hothers).1 h
  · rintro ⟨record, hrecord, heq⟩
    obtain ⟨others, hothers⟩ := exists_occurs_of_decode hwhole hrecord
    exact (hiff hothers).2 ⟨record, hrecord, heq⟩

/-- Where the elements of a repeated field are cut into chunks and each chunk is written as one
block or element by element, with whatever other fields stand between them, octets are accepted
exactly if the other fields are accepted by themselves. What the others leave in their slots stays,
and the slot of the field holds all elements in their order. The types in a registry are numbered
(`Registry.numbered_of_messageType`); a field with the number zero could not be read at all. -/
theorem decode_chunks {chunks : List (List Value)} {records : List (List Segment)}
    {fields : List Segment} (hnumbered : type.Numbered)
    (hdistinct : (type.fields.map Field.number).Nodup) (hfield : type.fields[index]? = some field)
    (hkind : Packs field.kind wireType content?)
    (hchunks : List.Forall₂ (Chunk field.number wireType content?) chunks records)
    (hrecords : numbered field.number fields = records.flatten)
    (hwhole : ∀ other ∈ besides field.number fields, other.Whole)
    (hlength : (joined fields).length < lengthBound) :
    (∀ result, decode registry type (joined fields) = .ok result ↔
      ∃ record, decode registry type (joined (besides field.number fields)) = .ok record ∧
        record.set index (some (.list chunks.flatten)) = result) ∧
    ∀ result, decode registry type (joined fields) = .ok result →
      result.value? index = some (.list chunks.flatten) := by
  have hnumber := hnumbered field (List.mem_of_getElem? hfield)
  have hfound : Found type index field :=
    ⟨hfield, MessageType.indexOfNumber?_of_nodup hdistinct hfield, hnumber.1,
      Nat.lt_succ_of_le hnumber.2⟩
  have hbound : ∀ record ∈ records.flatten, record.bytes.length < lengthBound := by
    intro record hrecord
    rw [← hrecords] at hrecord
    exact Nat.lt_of_le_of_lt
      (length_le_length_flatMap Segment.bytes (List.mem_filter.1 hrecord).1) hlength
  obtain ⟨blocks, hblocks, hoccurs⟩ := exists_blocks hfound hkind hchunks hbound
  rw [← hrecords] at hoccurs
  have hiff : ∀ result, decode registry type (joined fields) = .ok result ↔
      ∃ record, decode registry type (joined (besides field.number fields)) = .ok record ∧
        record.set index (some (.list chunks.flatten)) = result := by
    intro result
    rw [← hblocks]
    exact decode_besides hfound hkind hwhole hoccurs
  refine ⟨hiff, fun result hresult => ?_⟩
  obtain ⟨record, hrecord, rfl⟩ := (hiff result).1 hresult
  have hregular := regular_of_decode hrecord
  have hlt : index < record.length := by
    rw [hregular.holds.1.length_eq]
    exact (List.getElem?_eq_some_iff.1 hfield).1
  rw [Record.value?_set, if_pos ⟨rfl, hlt⟩]

/-- A file with a type of sheets, which have a title and marks. -/
def sheetFile : FileDescriptor where
  messages := [.mk "Sheet" [{ name := "title", number := 1, typeCode := some 9 },
    { name := "marks", number := 2, repeated := true, typeCode := some 17 }] [] [] false]

/-- The type of sheets. -/
def sheetType : MessageType where
  name := "Sheet"
  fields := [⟨1, "title", none, .scalar .string false⟩, ⟨2, "marks", none, .scalar .sint32 true⟩]

/-- The registry with the type of sheets. -/
def sheetRegistry : Registry where
  pending := [("Sheet", sheetType)]
  listing := [⟨.root "Sheet", false⟩]

/-- The type of sheets comes about by taking its file. -/
theorem reachable_sheet : sheetRegistry.Reachable :=
  .addFile (.empty {}) (show Registry.addFile _ sheetFile = .ok sheetRegistry from rfl)

/-- The fields of a sheet: a mark, the title, an empty block of marks, a field that sheets do not
have, and a block of two marks. -/
def sheetFields : List Segment :=
  [⟨2, [16, 1]⟩, ⟨1, [10, 1, 97]⟩, ⟨2, [18, 0]⟩, ⟨5, [40, 7]⟩, ⟨2, [18, 3, 216, 4, 4]⟩]

/-- The three marks are read in their order. -/
theorem decode_chunks_sheet : decode sheetRegistry sheetType (joined sheetFields)
    = .ok [some (.string "a"), some (.list [.i32 (-1), .i32 300, .i32 2])] := by
  have hcontents : Scalar.sint32.content? (.i32 (-1)) = some [1] ∧
      Scalar.sint32.content? (.i32 300) = some [216, 4] ∧
      Scalar.sint32.content? (.i32 2) = some [4] := ⟨by cbv, by cbv, by cbv⟩
  have hbytes : fieldBytes 2 .varint [1] = [16, 1] ∧ blockBytes 2 [] = [18, 0] ∧
      blockBytes 2 [216, 4, 4] = [18, 3, 216, 4, 4] := ⟨by cbv, by cbv, by cbv⟩
  have hsingle : Chunk 2 .varint Scalar.sint32.content? [.i32 (-1)] [⟨2, [16, 1]⟩] := by
    rw [← hbytes.1]
    exact .unpacked (show List.Forall₂ _ _ [[1]] from .cons hcontents.1 .nil)
  have hempty : Chunk 2 .varint Scalar.sint32.content? [] [⟨2, [18, 0]⟩] := by
    rw [← hbytes.2.1]
    exact .packed .nil
  have hblock : Chunk 2 .varint Scalar.sint32.content? [.i32 300, .i32 2]
      [⟨2, [18, 3, 216, 4, 4]⟩] := by
    rw [← hbytes.2.2]
    exact .packed (.cons hcontents.2.1 (.cons hcontents.2.2 .nil))
  have hwhole : ∀ other ∈ besides 2 sheetFields, other.Whole := by
    have hothers : besides 2 sheetFields = [⟨1, [10, 1, 97]⟩, ⟨5, [40, 7]⟩] := rfl
    rw [hothers]
    simp only [List.forall_mem_cons, Segment.whole_iff]
    exact ⟨by cbv, by cbv, fun _ h => absurd h List.not_mem_nil⟩
  have hnumbered : sheetType.Numbered := Registry.numbered_of_messageType reachable_sheet
    (show sheetRegistry.messageType "Sheet" = .ok sheetType from rfl)
  refine ((decode_chunks hnumbered (by decide)
    (show sheetType.fields[1]? = some _ from rfl) (.scalar rfl)
    (.cons hsingle (.cons hempty (.cons hblock .nil)))
    (show numbered 2 sheetFields = _ from rfl) hwhole (by decide)).1 _).2 ?_
  exact ⟨[some (.string "a"), some (.list [])], by cbv, rfl⟩

end DynProto.Binary
