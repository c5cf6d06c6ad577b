import DynProto.Proofs.Binary.Filling
import DynProto.Proofs.Binary.Piece
import DynProto.Proofs.Binary.WellFormed
import DynProto.Proofs.Record.Merge
import DynProto.Proofs.Registry.Reachable
import DynProto.Proofs.Wire.Content

/-!
# Written messages are read back

What the writer makes of a record is read as the canonical record, as long as messages are nested no
more deeply than the limit allows, and as the error for the limit otherwise (`merge_encode`). Field
by field: the octets of a value fill its slot with the canonical value (`fills_of_piece`), where the
messages inside are read back on the level below.
-/

namespace DynProto.Binary

open Wire

variable {registry : Registry} {type : MessageType} {index : Nat} {field : Field}

/-! ## Fields that are found -/

/-- A field at a place to which its number leads, with a number that a key can hold. -/
structure Found (type : MessageType) (index : Nat) (field : Field) : Prop where
  /-- The field is at the place. -/
  get : type.fields[index]? = some field
  /-- Its number leads there. -/
  index_eq : type.indexOfNumber? field.number = some index
  /-- Its number is not zero. -/
  pos : 0 < field.number
  /-- Its number leaves room for the wire type. -/
  lt : field.number < keyBound

/-- A field that is found is read by the reader of its kind. -/
theorem Found.reads (h : Found type index field) {wireType : WireType} {content : Bytes}
    {occurrence : Occurrence}
    (hcontent : (contentReader index wireType field.kind).Reads content occurrence) :
    (fieldReader type).Reads (fieldBytes field.number wireType content) occurrence := by
  have hkey : Reader.key.Reads (Key.bytes ⟨field.number, wireType⟩) _ := reads_key h.pos h.lt
  refine hkey.andThen ?_
  simp only [h.index_eq, Option.bind_some, h.get, Option.map_some]
  exact hcontent

/-- Content with the wire type that is expected is read as such. -/
theorem expecting_self {α : Type} (wireType : WireType) (r : Reader Wire.Fault α) :
    expecting wireType wireType r = r :=
  if_pos rfl

/-- A field is not shorter than its content. -/
theorem length_le_length_fieldBytes (number : Nat) (wireType : WireType) (content : Bytes) :
    content.length ≤ (fieldBytes number wireType content).length := by
  simp [fieldBytes]

/-- A field with a block is not shorter than the block. -/
theorem length_le_length_blockBytes (number : Nat) (block : Bytes) :
    block.length ≤ (blockBytes number block).length :=
  Nat.le_trans (length_le_length_delimited block) (length_le_length_fieldBytes _ _ _)

/-! ## Steps -/

/-- A step that applies all occurrences but map entries as they are. -/
def AppliesPlain (step : Record → Occurrence → Except CodecError Record) (nested : Nested)
    (registry : Registry) (type : MessageType) : Prop :=
  ∀ record occurrence, (∀ index key value body, occurrence ≠ .entry index key value body) →
    step record occurrence = applyPlain nested registry type record occurrence

variable {nested : Nested}

/-- Messages are read in this way, map entries aside. -/
theorem appliesPlain_apply : AppliesPlain (apply nested registry type) nested registry type := by
  intro record occurrence hentry
  cases occurrence
  case entry index key value body => exact absurd rfl (hentry index key value body)
  all_goals rfl

/-- So are map entries themselves. -/
theorem appliesPlain_applyPlain (nested : Nested) (registry : Registry) (type : MessageType) :
    AppliesPlain (applyPlain nested registry type) nested registry type :=
  fun _ _ _ => rfl

/-- A slot that exists is changed by the function. -/
theorem update_of_getElem? {record : Record} {slot : Option Value}
    {f : Option Value → Except CodecError Value} (h : record[index]? = some slot) :
    update type record index f
      = ((f slot).map some).map fun slot => record.set index slot := by
  unfold update
  rw [h]
  show (f slot >>= _) = _
  cases f slot <;> rfl

variable {step : Record → Occurrence → Except CodecError Record}

/-! ## Single values -/

/-- A scalar value fills its slot. -/
theorem fills_scalar (h : Found type index field) (hstep : AppliesPlain step nested registry type)
    {kind : Scalar} (hkind : field.kind = .scalar kind false) {v : Value} {content : Bytes}
    (hcontent : kind.content? v = some content) (hlength : content.length < lengthBound)
    (before : Option Value) :
    Fills step type index (fieldBytes field.number kind.wireType content) before
      (.ok (some v)) := by
  have hread : (contentReader index kind.wireType field.kind).Reads content (.value index v) := by
    rw [hkind, contentReader, expecting_self]
    exact (Scalar.reads_content hcontent hlength).map rfl
  refine fills_of_reads (h.reads hread) nofun fun record hslot => ?_
  rw [hstep _ _ (by simp)]
  exact update_of_getElem? hslot

/-- The number of an enum value fills its slot. -/
theorem fills_enum (h : Found type index field) (hstep : AppliesPlain step nested registry type)
    {name : String} (hkind : field.kind = .enum name false) (n : Int32) (before : Option Value) :
    Fills step type index (fieldBytes field.number .varint (Scalar.int32Content n)) before
      (.ok (some (.enum n))) := by
  have hread : (contentReader index .varint field.kind).Reads (Scalar.int32Content n)
      (.value index (.enum n)) := by
    rw [hkind, contentReader, expecting_self]
    exact ((Scalar.reads_int32 n).map rfl).map rfl
  refine fills_of_reads (h.reads hread) nofun fun record hslot => ?_
  rw [hstep _ _ (by simp)]
  exact update_of_getElem? hslot

/-- A message is read into the one in its slot. -/
theorem fills_message (h : Found type index field) (hstep : AppliesPlain step nested registry type)
    {name : String} (hkind : field.kind = .message name false) {child : MessageType}
    (hchild : registry.codecMessageType name = .ok child) {body : Bytes}
    (hlength : body.length < lengthBound) (before : Option Value) :
    Fills step type index (blockBytes field.number body) before
      ((nested child (messageOf child.defaultRecord before) body).map fun inner =>
        some (.message inner)) := by
  have hread : (contentReader index .delimited field.kind).Reads (delimited body)
      (.nested index name false body) := by
    rw [hkind, contentReader, expecting_self]
    exact (reads_block _ hlength).map rfl
  refine fills_of_reads (h.reads hread) nofun fun record hslot => ?_
  rw [hstep _ _ (by simp), applyPlain, update_of_getElem? hslot, hchild]
  show Except.map _ (Except.map _ (nested child (messageOf _ before) body >>= _)) = _
  cases nested child (messageOf child.defaultRecord before) body <;> rfl

/-! ## Lists -/

/-- Contents of scalar values are read back one by one. -/
theorem reads_contents {kind : Scalar} {vs : List Value} {contents : List Bytes}
    (h : List.Forall₂ (fun v content => kind.content? v = some content) vs contents)
    (hlength : contents.flatten.length < lengthBound) :
    List.Forall₂ kind.reader.Reads contents vs := by
  induction h with
  | nil => exact .nil
  | cons hcontent _ ih =>
    rw [List.flatten_cons, List.length_append] at hlength
    exact .cons (Scalar.reads_content hcontent (by omega)) (ih (by omega))

/-- Values in one occurrence are appended to the list in their slot. -/
theorem fills_elements (h : Found type index field)
    (hstep : AppliesPlain step nested registry type) {wireType : WireType} {content : Bytes}
    {vs : List Value}
    (hread : (contentReader index wireType field.kind).Reads content (.elements index vs))
    (front : List Value) :
    Fills step type index (fieldBytes field.number wireType content) (some (.list front))
      (.ok (some (.list (front ++ vs)))) := by
  refine fills_of_reads (h.reads hread) nofun fun record hslot => ?_
  rw [hstep _ _ (by simp)]
  exact update_of_getElem? hslot

/-- A block of scalar values is appended to the list in its slot. -/
theorem fills_packed (h : Found type index field) (hstep : AppliesPlain step nested registry type)
    {kind : Scalar} (hkind : field.kind = .scalar kind true) (hpackable : kind.isPackable = true)
    {vs : List Value} {contents : List Bytes}
    (hcontents : List.Forall₂ (fun v content => kind.content? v = some content) vs contents)
    (hlength : contents.flatten.length < lengthBound) (front : List Value) :
    Fills step type index (blockBytes field.number contents.flatten) (some (.list front))
      (.ok (some (.list (front ++ vs)))) := by
  refine fills_elements h hstep ?_ front
  rw [hkind, contentReader, elementsReader, hpackable]
  exact (reads_packed id (reads_contents hcontents hlength) hlength).map rfl

/-- A scalar value of a kind that cannot be packed is appended to the list in its slot. -/
theorem fills_unpacked (h : Found type index field)
    (hstep : AppliesPlain step nested registry type) {kind : Scalar}
    (hkind : field.kind = .scalar kind true) (hpackable : kind.isPackable = false) {v : Value}
    {content : Bytes} (hcontent : kind.content? v = some content)
    (hlength : content.length < lengthBound) (front : List Value) :
    Fills step type index (fieldBytes field.number kind.wireType content) (some (.list front))
      (.ok (some (.list (front ++ [v])))) := by
  refine fills_elements h hstep ?_ front
  rw [hkind, contentReader, elementsReader, hpackable, expecting_self]
  exact ((Scalar.reads_content hcontent hlength).map rfl).map rfl

/-- A block of enum numbers is appended to the list in its slot. -/
theorem fills_enums (h : Found type index field) (hstep : AppliesPlain step nested registry type)
    {name : String} (hkind : field.kind = .enum name true) (numbers : List Int32)
    (hlength : (numbers.flatMap Scalar.int32Content).length < lengthBound) (front : List Value) :
    Fills step type index (blockBytes field.number (numbers.flatMap Scalar.int32Content))
      (some (.list front)) (.ok (some (.list (front ++ numbers.map .enum)))) := by
  have hcontents : List.Forall₂ enumReader.Reads (numbers.map Scalar.int32Content)
      (numbers.map .enum) := by
    rw [List.forall₂_map_left_iff, List.forall₂_map_right_iff, List.forall₂_same]
    exact fun n _ => (Scalar.reads_int32 n).map rfl
  refine fills_elements h hstep ?_ front
  rw [List.flatMap_def] at hlength ⊢
  rw [hkind]
  exact (reads_packed id hcontents hlength).map rfl

/-- A message of a repeated field is appended to the list in its slot. -/
theorem fills_element (h : Found type index field) (hstep : AppliesPlain step nested registry type)
    {name : String} (hkind : field.kind = .message name true) {child : MessageType}
    (hchild : registry.codecMessageType name = .ok child) {body : Bytes}
    (hlength : body.length < lengthBound) (front : List Value) :
    Fills step type index (blockBytes field.number body) (some (.list front))
      ((nested child child.defaultRecord body).map fun inner =>
        some (.list (front ++ [.message inner]))) := by
  have hread : (contentReader index .delimited field.kind).Reads (delimited body)
      (.nested index name true body) := by
    rw [hkind, contentReader, expecting_self]
    exact (reads_block _ hlength).map rfl
  refine fills_of_reads (h.reads hread) nofun fun record hslot => ?_
  rw [hstep _ _ (by simp), applyPlain, update_of_getElem? hslot, hchild]
  show Except.map _ (Except.map _ (nested child child.defaultRecord body >>= _)) = _
  cases nested child child.defaultRecord body <;> rfl

/-! ## Messages inside -/

/-- What the writer makes of a record is merged into any record of the type where messages may be
nested on `levels` levels, and is refused with an error where they are nested more deeply. -/
def ReadsInto (nested : Nested) (registry : Registry) (levels : Nat) (error : CodecError)
    (type : MessageType) (record : Record) : Prop :=
  ∀ base bytes, base.WellFormed registry type → encode registry type record = .ok bytes →
    bytes.length < lengthBound → nested type base bytes
      = if record.depth < levels then .ok (base.merge (registry.canonical type record))
        else .error error

/-- What the writer makes of a record is read back into a default record where messages may be
nested on `levels` levels, and is refused with an error where they are nested more deeply. -/
def ReadsBack (nested : Nested) (registry : Registry) (levels : Nat) (error : CodecError)
    (type : MessageType) (record : Record) : Prop :=
  ∀ bytes, encode registry type record = .ok bytes → bytes.length < lengthBound →
    nested type type.defaultRecord bytes
      = if record.depth < levels then .ok (registry.canonical type record) else .error error

variable {levels : Nat} {error : CodecError}

/-- What is merged into any record is read back into the default record. -/
theorem ReadsInto.readsBack {record : Record}
    (h : ReadsInto nested registry levels error type record) :
    ReadsBack nested registry levels error type record := by
  intro bytes hbytes hlength
  rw [h _ bytes (Record.wellFormed_defaultRecord registry type) hbytes hlength,
    Record.merge_defaultRecord (shaped_canonical hbytes)]

/-- A message that is read back, put into a value by a function. -/
theorem ReadsBack.map {child : MessageType} {slots : Record}
    (h : ReadsBack nested registry levels error child slots) {body : Bytes}
    (hbody : encode registry child slots = .ok body) (hlength : body.length < lengthBound)
    (f : Record → Option Value) :
    (nested child child.defaultRecord body).map f
      = if (Value.message slots).depth ≤ levels then .ok (f (registry.canonical child slots))
        else .error error := by
  rw [h body hbody hlength, Record.map_guarded]

/-- A value without messages inside is within every limit. -/
theorem ok_of_depth_eq_zero {α : Type} {v : Value} (h : v.depth = 0) (a : α) :
    (if v.depth ≤ levels then Except.ok a else .error error) = .ok a :=
  if_pos (by omega)

/-! ## Map entries -/

/-- The key of a map entry is found. -/
theorem found_key (owner : String) (key : Scalar) (value : MapValue) :
    Found (entryType owner key value) 0 ⟨1, "key", none, .scalar key false⟩ where
  get := by rw [entryType_fields]; rfl
  index_eq := by rw [MessageType.indexOfNumber?, entryType_fields]; rfl
  pos := show 0 < 1 by decide
  lt := show 1 < keyBound by decide

/-- The value of a map entry is found. -/
theorem found_value (owner : String) (key : Scalar) (value : MapValue) :
    Found (entryType owner key value) 1 ⟨2, "value", none, value.fieldKind⟩ where
  get := by rw [entryType_fields]; rfl
  index_eq := by rw [MessageType.indexOfNumber?, entryType_fields]; rfl
  pos := show 0 < 2 by decide
  lt := show 2 < keyBound by decide

/-- The value of a map entry fills its slot with the canonical value. -/
theorem fills_of_valuePiece (owner : String) (key : Scalar) {value : MapValue} {v : Value}
    {bytes : Bytes} (h : ValuePiece registry value v bytes) (hlength : bytes.length < lengthBound)
    (hinner : ∀ name slots child, value.fieldKind.Holds v name slots →
      registry.codecMessageType name = .ok child →
      ReadsBack nested registry levels error child slots) :
    Fills (applyPlain nested registry (entryType owner key value)) (entryType owner key value) 1
      bytes value.fieldKind.default
      (if v.depth ≤ levels then .ok (some (registry.canonicalValue value.fieldKind v))
        else .error error) := by
  have hfound := found_value owner key value
  have hstep := appliesPlain_applyPlain nested registry (entryType owner key value)
  rcases h with @⟨kind, v, content, hcontent⟩ | @⟨name, v, n, hn⟩ |
    @⟨name, child, slots, body, hchild, hbody⟩
  · rw [ok_of_depth_eq_zero (Value.depth_of_fits (fits_of_content hcontent)),
      MapValue.fieldKind, Registry.canonicalValue_scalar]
    have hle := length_le_length_fieldBytes 2 kind.wireType content
    exact fills_scalar hfound hstep rfl hcontent (by omega) _
  · rw [ok_of_depth_eq_zero (Value.depth_of_asEnum hn), MapValue.fieldKind,
      Registry.canonicalValue, hn]
    exact fills_enum hfound hstep rfl n _
  · have hlt := Nat.lt_of_le_of_lt (length_le_length_blockBytes 2 body) hlength
    have hmessage := fills_message hfound hstep rfl hchild hlt none
    have hempty : messageOf child.defaultRecord none = child.defaultRecord := rfl
    rw [hempty, (hinner name slots child .single hchild).map hbody hlt] at hmessage
    rw [MapValue.fieldKind, Registry.canonicalValue_message hchild]
    exact hmessage

/-- The octets of a map entry are read as its key and the canonical value. -/
theorem entryOf_of_entryPiece (owner : String) {key : Scalar} {value : MapValue} {k : MapKey}
    {v : Value} {body : Bytes} (h : EntryPiece registry key value (k, v) body)
    (hlength : body.length < lengthBound)
    (hinner : ∀ name slots child, value.fieldKind.Holds v name slots →
      registry.codecMessageType name = .ok child →
      ReadsBack nested registry levels error child slots) :
    (foldFields (entryType owner key value)
        (applyPlain nested registry (entryType owner key value))
        (entryType owner key value).defaultRecord body
      >>= entryOf registry owner key value)
      = if v.depth ≤ levels then .ok (k, registry.canonicalValue value.fieldKind v)
        else .error error := by
  rcases h with @⟨k, v, content, bytes, hkey, hvalue⟩
  rw [List.length_append] at hlength
  have hle := length_le_length_fieldBytes 1 key.wireType content
  obtain ⟨keyFields, hyields, hfold⟩ := fills_scalar (found_key owner key value)
    (appliesPlain_applyPlain nested registry _) rfl hkey (by omega) (some (Value.scalarDefault key))
  obtain ⟨valueFields, hyields', hfold'⟩ :=
    fills_of_valuePiece owner key hvalue (by omega) hinner
  have hdefault : (entryType owner key value).defaultRecord
      = [some (Value.scalarDefault key), value.fieldKind.default] := by
    rw [MessageType.defaultRecord, entryType_fields]
    rfl
  rw [foldFields_of_yields (hyields.append hyields'), List.foldlM_append, hdefault,
    hfold _ rfl]
  show (valueFields.foldlM _ [some k.toValue, value.fieldKind.default] >>= _) = _
  rw [hfold' _ rfl]
  by_cases hdepth : v.depth ≤ levels
  · rw [if_pos hdepth, if_pos hdepth]
    show entryOf registry owner key value
      [some k.toValue, some (registry.canonicalValue value.fieldKind v)] = _
    unfold entryOf
    simp [Record.value?]
    rfl
  · rw [if_neg hdepth, if_neg hdepth]
    rfl

/-- A map entry is inserted into the map in its slot. -/
theorem fills_entry (h : Found type index field) {key : Scalar} {value : MapValue}
    (hkind : field.kind = .map key value) {k : MapKey} {v : Value} {body : Bytes}
    (hbody : EntryPiece registry key value (k, v) body) (hlength : body.length < lengthBound)
    (hinner : ∀ name slots child, value.fieldKind.Holds v name slots →
      registry.codecMessageType name = .ok child →
      ReadsBack nested registry levels error child slots) (front : OrderedMap MapKey Value) :
    Fills (apply nested registry type) type index (blockBytes field.number body)
      (some (.map front))
      (if v.depth ≤ levels then
        .ok (some (.map (front.insert k (registry.canonicalValue value.fieldKind v))))
      else .error error) := by
  have hread : (contentReader index .delimited field.kind).Reads (delimited body)
      (.entry index key value body) := by
    rw [hkind, contentReader, expecting_self]
    exact (reads_block _ hlength).map rfl
  have hentry := entryOf_of_entryPiece type.name hbody hlength hinner
  refine fills_of_reads (h.reads hread) nofun fun record hslot => ?_
  rw [apply, update_of_getElem? hslot]
  show (((foldFields _ _ _ _ >>= fun inner => entryOf registry type.name key value inner >>= _).map
    some).map _) = _
  rw [← bind_assoc, hentry]
  by_cases hdepth : v.depth ≤ levels
  · rw [if_pos hdepth, if_pos hdepth]
    rfl
  · rw [if_neg hdepth, if_neg hdepth]
    rfl

/-! ## Fields -/

/-- The values of a list that are written one by one are appended to the list in their slot if each
is. -/
theorem fills_list {bytes : Bytes → Bytes} (canonical : Value → Value) {R : Value → Bytes → Prop}
    {vs : List Value} {contents : List Bytes} (h : List.Forall₂ R vs contents)
    (hfills : ∀ v content, v ∈ vs → content ∈ contents → R v content → ∀ front,
      Fills step type index (bytes content) (some (.list front))
        (if v.depth ≤ levels then .ok (some (.list (front ++ [canonical v])))
          else .error error)) (front : List Value) :
    Fills step type index (contents.flatMap bytes) (some (.list front))
      (if (Value.list vs).depth ≤ levels then .ok (some (.list (front ++ vs.map canonical)))
        else .error error) := by
  have hall := fills_flatMap (fun front => some (.list front))
    (fun front v => front ++ [canonical v]) h hfills front
  have hiff : (∀ v ∈ vs, v.depth ≤ levels) ↔ (Value.list vs).depth ≤ levels :=
    Value.elementsDepth_le_iff.symm
  rw [List.foldl_append_eq_append, ← List.flatMap_def, ← List.map_eq_flatMap] at hall
  simp only [hiff] at hall
  exact hall

/-- The entries of a map are inserted into the map in their slot if each is. -/
theorem fills_map (h : Found type index field) {key : Scalar} {value : MapValue}
    (hkind : field.kind = .map key value) {entries : List (MapKey × Value)} {bodies : List Bytes}
    (hbodies : List.Forall₂ (EntryPiece registry key value) entries bodies)
    (hlength : (bodies.flatMap (blockBytes field.number)).length < lengthBound)
    (hinner : ∀ name slots child, (FieldKind.map key value).Holds (.map entries) name slots →
      registry.codecMessageType name = .ok child →
      ReadsBack nested registry levels error child slots) {front : OrderedMap MapKey Value}
    (hordered : OrderedMap.Ordered front) :
    Fills (apply nested registry type) type index (bodies.flatMap (blockBytes field.number))
      (some (.map front))
      (if (Value.map entries).depth ≤ levels then .ok (some (.map
        (front.union (OrderedMap.ofList (registry.canonicalEntries value entries)))))
      else .error error) := by
  have hfills : ∀ entry body, entry ∈ entries → body ∈ bodies →
      EntryPiece registry key value entry body → ∀ front : OrderedMap MapKey Value,
      Fills (apply nested registry type) type index (blockBytes field.number body)
        (some (.map front))
        (if entry.2.depth ≤ levels then .ok (some (.map (front.insert entry.1
            (registry.canonicalValue value.fieldKind entry.2))))
          else .error error) := by
    intro entry body hentry hbody hpiece front
    have hle := length_le_length_flatMap (blockBytes field.number) hbody
    have hle' := length_le_length_blockBytes field.number body
    exact fills_entry h hkind hpiece (by omega)
      (fun name slots child hholds => hinner name slots child (hholds.of_entry hentry)) front
  have hall := fills_flatMap (fun front => some (.map front)) _ hbodies hfills front
  have hiff : (∀ entry ∈ entries, entry.2.depth ≤ levels) ↔ (Value.map entries).depth ≤ levels :=
    Value.entriesDepth_le_iff.symm
  simp only [hiff] at hall
  rw [OrderedMap.union_ofList hordered, Registry.canonicalEntries_eq_map, OrderedMap.union,
    List.foldl_map]
  exact hall

/-- The message in a slot is of its type, and so is the default in its place. -/
theorem wellFormed_messageOf {base : Record} (hbase : base.WellFormed registry type)
    (hfield : type.fields[index]? = some field) {name : String}
    (hkind : field.kind = .message name false) {child : MessageType}
    (hchild : registry.codecMessageType name = .ok child) :
    (messageOf child.defaultRecord (base.value? index)).WellFormed registry child :=
  throughout_messageOf (Record.shaped_defaultRecord registry) hbase hfield rfl hkind hchild

/-- A slot in which the type of the field does not allow a missing message holds a value of the
field. -/
theorem Found.exists_value (h : Found type index field) {base : Record}
    (hbase : base.WellFormed registry type) (hkind : ∀ name, field.kind ≠ .message name false) :
    ∃ v, base.value? index = some v ∧ field.kind.Suits registry v := by
  rcases hslot : base.value? index with _ | v
  · obtain ⟨name, hmessage⟩ := hbase.holds.unset index field h.get hslot
    exact absurd hmessage (hkind name)
  · exact ⟨v, rfl, hbase.holds.suits index field v h.get hslot⟩

/-- The slot of a field that defaults to the empty list holds a list. -/
theorem Found.exists_list (h : Found type index field) {base : Record}
    (hbase : base.WellFormed registry type) (hdefault : field.kind.default = some (.list [])) :
    ∃ vs, base.value? index = some (.list vs) := by
  obtain ⟨v, hslot, hsuits⟩ := h.exists_value hbase fun name hkind => by
    rw [hkind] at hdefault
    cases hdefault
  obtain ⟨vs, rfl⟩ := hsuits.exists_list hdefault
  exact ⟨vs, hslot⟩

/-- The octets of a message merge its canonical record into the message in its slot. -/
theorem fills_message_into (h : Found type index field) {base : Record}
    (hbase : base.WellFormed registry type) {name : String}
    (hkind : field.kind = .message name false) {child : MessageType} {slots : Record} {body : Bytes}
    (hchild : registry.codecMessageType name = .ok child)
    (hbody : encode registry child slots = .ok body)
    (hlength : (blockBytes field.number body).length < lengthBound)
    (hinner : ReadsInto nested registry levels error child slots) :
    Fills (apply nested registry type) type index (blockBytes field.number body)
      (base.value? index)
      (if (Value.message slots).depth ≤ levels then
        .ok (Value.mergeSlot (base.value? index)
          (some (registry.canonicalValue (.message name false) (.message slots))))
      else .error error) := by
  have hstep : AppliesPlain (apply nested registry type) nested registry type :=
    appliesPlain_apply
  have hlt := Nat.lt_of_le_of_lt (length_le_length_blockBytes field.number body) hlength
  have hmessage := fills_message h hstep hkind hchild hlt (base.value? index)
  rw [hinner _ body (wellFormed_messageOf hbase h.get hkind hchild) hbody hlt,
    Record.map_guarded] at hmessage
  rw [Registry.canonicalValue_message hchild]
  rcases hslot : base.value? index with _ | v
  · have hempty : messageOf child.defaultRecord none = child.defaultRecord := rfl
    rw [hslot, hempty, Record.merge_defaultRecord (shaped_canonical hbody)] at hmessage
    exact hmessage
  · have hsuits := hbase.holds.suits index field v h.get hslot
    rw [hkind] at hsuits
    obtain ⟨before, rfl⟩ := hsuits.exists_message
    rw [hslot] at hmessage
    exact hmessage

/-- The octets of messages append their canonical records to the list in their slot. -/
theorem fills_messages (h : Found type index field) {name : String}
    (hkind : field.kind = .message name true) {child : MessageType} {vs : List Value}
    {bodies : List Bytes} (hchild : registry.codecMessageType name = .ok child)
    (hbodies : List.Forall₂
      (fun v body => ∃ slots, v = .message slots ∧ encode registry child slots = .ok body)
      vs bodies)
    (hlength : (bodies.flatMap (blockBytes field.number)).length < lengthBound)
    (hinner : ∀ slots, Value.message slots ∈ vs →
      ReadsBack nested registry levels error child slots) (front : List Value) :
    Fills (apply nested registry type) type index (bodies.flatMap (blockBytes field.number))
      (some (.list front))
      (if (Value.list vs).depth ≤ levels then
        .ok (some (.list (front ++ vs.map (registry.canonicalValue (.message name false)))))
      else .error error) := by
  have hstep : AppliesPlain (apply nested registry type) nested registry type :=
    appliesPlain_apply
  refine fills_list _ hbodies (fun v body hv hmem hpiece front => ?_) front
  obtain ⟨slots, rfl, hbody⟩ := hpiece
  have hle := length_le_length_flatMap (blockBytes field.number) hmem
  have hle' := length_le_length_blockBytes field.number body
  have hmessage := fills_element h hstep hkind hchild (Nat.lt_of_le_of_lt hle' (by omega)) front
  rw [(hinner slots hv).map hbody (by omega)] at hmessage
  rw [Registry.canonicalValue_message hchild]
  exact hmessage

/-- The octets of the value of a field merge the canonical value into the slot of the field, as long
as messages are nested no more deeply inside than the levels below allow. -/
theorem fills_of_piece (h : Found type index field) {base : Record}
    (hbase : base.WellFormed registry type) {v : Value} {bytes : Bytes}
    (hpiece : Piece registry field.number field.kind v bytes) (hlength : bytes.length < lengthBound)
    (hinner : ∀ name slots child, field.kind.Holds v name slots →
      registry.codecMessageType name = .ok child →
      ReadsInto nested registry levels error child slots) :
    Fills (apply nested registry type) type index bytes (base.value? index)
      (if v.depth ≤ levels then
        .ok (Value.mergeSlot (base.value? index) (some (registry.canonicalValue field.kind v)))
      else .error error) := by
  have hstep : AppliesPlain (apply nested registry type) nested registry type :=
    appliesPlain_apply
  have hset := h.exists_value hbase
  have hlist := h.exists_list hbase
  generalize hkind : field.kind = kind at hpiece hinner hset hlist
  rcases hpiece with @⟨kind, v, content, hcontent⟩ | @⟨kind, vs, contents, hpackable, hcontents⟩ |
    @⟨kind, vs, contents, hpackable, hcontents⟩ | @⟨name, v, n, hn⟩ |
    @⟨name, vs, numbers, hnumbers⟩ | @⟨name, child, slots, body, hchild, hbody⟩ | @⟨name⟩ |
    @⟨name, child, vs, bodies, hchild, hbodies⟩ | @⟨key, value, entries, bodies, hbodies⟩
  case scalar =>
    obtain ⟨w, hslot, _⟩ := hset (by simp)
    have hfits := fits_of_content hcontent
    rw [ok_of_depth_eq_zero (Value.depth_of_fits hfits), Registry.canonicalValue_scalar, hslot,
      Value.mergeSlot_some, Value.merge_of_fits w hfits]
    split_ifs at hlength ⊢ with hdefault
    · exact fills_nil
    · have hle := length_le_length_fieldBytes field.number kind.wireType content
      exact fills_scalar h hstep hkind hcontent (by omega) _
  case packed =>
    obtain ⟨front, hslot⟩ := hlist rfl
    have hdepth : (Value.list vs).depth = 0 :=
      Value.depth_list_eq_zero fun v hv => Value.depth_of_fits (fits_of_contents hcontents v hv)
    rw [ok_of_depth_eq_zero hdepth, Registry.canonicalValue_scalar, hslot, Value.mergeSlot_some,
      Value.merge]
    split_ifs at hlength ⊢ with hempty
    · rw [List.isEmpty_iff.1 hempty, List.append_nil]
      exact fills_nil
    · have hle := length_le_length_blockBytes field.number contents.flatten
      exact fills_packed h hstep hkind hpackable hcontents (by omega) front
  case unpacked =>
    obtain ⟨front, hslot⟩ := hlist rfl
    have hself : Value.list (front ++ vs) = .list (front ++ vs.map id) := by rw [List.map_id]
    rw [Registry.canonicalValue_scalar, hslot, Value.mergeSlot_some, Value.merge, hself]
    refine fills_list id hcontents (fun v content _ hmem hcontent front => ?_) front
    rw [ok_of_depth_eq_zero (Value.depth_of_fits (fits_of_content hcontent))]
    have hle := length_le_length_flatMap (fieldBytes field.number kind.wireType) hmem
    have hle' := length_le_length_fieldBytes field.number kind.wireType content
    exact fills_unpacked h hstep hkind hpackable hcontent (by omega) front
  case enum =>
    obtain ⟨w, hslot, _⟩ := hset (by simp)
    rw [ok_of_depth_eq_zero (Value.depth_of_asEnum hn), Registry.canonicalValue, hn, hslot,
      Value.mergeSlot_some, Value.merge_enum]
    split_ifs with hzero
    · exact fills_nil
    · exact fills_enum h hstep hkind n _
  case enums =>
    obtain ⟨front, hslot⟩ := hlist rfl
    rw [ok_of_depth_eq_zero (Value.depth_of_asEnums hnumbers),
      registry.canonicalValue_enums hnumbers, hslot, Value.mergeSlot_some, Value.merge]
    split_ifs at hlength ⊢ with hempty
    · rw [List.isEmpty_iff.1 hempty, List.map_nil, List.append_nil]
      exact fills_nil
    · have hle := length_le_length_blockBytes field.number (numbers.flatMap Scalar.int32Content)
      exact fills_enums h hstep hkind numbers (by omega) front
  case message =>
    exact fills_message_into h hbase hkind hchild hbody hlength
      (hinner name slots child .single hchild)
  case noMessages =>
    obtain ⟨front, hslot⟩ := hlist rfl
    rw [hslot, Registry.canonicalValue, Registry.canonicalElements, Value.mergeSlot_some,
      Value.merge, List.append_nil]
    exact fills_nil
  case messages =>
    obtain ⟨front, hslot⟩ := hlist rfl
    rw [Registry.canonicalValue, Registry.canonicalElements_eq_map, hslot, Value.mergeSlot_some,
      Value.merge]
    exact fills_messages h hkind hchild hbodies hlength
      (fun slots hmem => (hinner name slots child (.element hmem) hchild).readsBack) front
  case map =>
    obtain ⟨w, hslot, hsuits⟩ := hset (by simp)
    obtain ⟨front, rfl, hordered⟩ := hsuits.exists_map
    rw [Registry.canonicalValue, hslot, Value.mergeSlot_some, Value.merge]
    exact fills_map h hkind hbodies hlength
      (fun name slots child hholds hchild => (hinner name slots child hholds hchild).readsBack)
      hordered

/-! ## Messages -/

/-- Every value of a record is of a field that is found by its number, or is the default of its
field and thus not written. -/
def Readable (type : MessageType) (record : Record) : Prop :=
  ∀ i field v, type.fields[i]? = some field → record.value? i = some v →
    Found type i field ∨ field.kind.default = some v

/-- The octets of a slot merge the canonical slot into it. -/
theorem fills_of_pieces {record base : Record} {pieces : Nat → Bytes}
    (hpieces : Pieces registry type record pieces) (hreadable : Readable type record)
    (hbase : base.WellFormed registry type) (hfield : type.fields[index]? = some field)
    (hlength : (pieces index).length < lengthBound)
    (hinner : ∀ v name slots child, record.value? index = some v →
      field.kind.Holds v name slots → registry.codecMessageType name = .ok child →
      ReadsInto nested registry levels error child slots) :
    Fills (apply nested registry type) type index (pieces index) (base.value? index)
      (if record.depthAt index ≤ levels then
        .ok (Value.mergeSlot (base.value? index) ((registry.canonical type record).value? index))
      else .error error) := by
  rw [registry.value?_canonical hfield]
  unfold Record.depthAt Registry.canonicalSlot
  rcases hv : record.value? index with _ | v
  · rw [hpieces.nil index field hfield hv, Option.elim_none, Option.elim_none,
      Record.mergeSlot_default hbase.holds hfield]
    exact fills_nil
  · have hpiece := hpieces.piece index field v hfield hv
    rw [Option.elim_some, Option.elim_some]
    rcases hreadable index field v hfield hv with hfound | hdefault
    · exact fills_of_piece hfound hbase hpiece hlength fun name slots child hholds =>
        hinner v name slots child hv hholds
    · rw [hpiece.eq_nil_of_default hdefault, Record.canonicalValue_default hdefault,
        ok_of_depth_eq_zero (FieldKind.depth_default hdefault), ← hdefault,
        Record.mergeSlot_default hbase.holds hfield]
      exact fills_nil

/-- The messages in the slots of a type are nested as deeply as those in the record. -/
theorem forall_depthAt_le_iff {record : Record} (hlength : record.length ≤ type.fields.length)
    (levels : Nat) :
    (∀ i ∈ type.wireOrder, record.depthAt i ≤ levels) ↔ record.depth ≤ levels := by
  rw [Record.depth_le_iff_depthAt]
  constructor
  · intro h i
    by_cases hi : i ∈ type.wireOrder
    · exact h i hi
    · rw [type.wireOrder_perm.mem_iff, List.mem_range] at hi
      rw [Record.depthAt_of_length_le (by omega)]
      exact Nat.zero_le levels
  · intro h i _
    exact h i

/-- Merging slot by slot in the order of the field numbers merges the records. -/
theorem foldl_set_mergeSlot {base later : Record} (hbase : base.length = type.fields.length)
    (hlater : later.length = type.fields.length) :
    type.wireOrder.foldl (fun merged i => merged.set i
        (Value.mergeSlot (base.value? i) (later.value? i))) base = base.merge later := by
  refine List.ext_getElem? fun i => ?_
  rw [Record.getElem?_foldl_set, Record.getElem?_merge (hbase.trans hlater.symm)]
  split_ifs with hi
  · rfl
  · rw [type.wireOrder_perm.mem_iff, List.mem_range, ← hbase, not_lt] at hi
    rw [List.getElem?_eq_none_iff.2 hi]
    rfl

/-- The fields that occur in what the writer makes of a record merge it into any record of the type,
where messages may be nested on so many levels below. -/
theorem exists_fields_of_encode {record base : Record} {bytes : Bytes}
    (h : record.Throughout registry Readable type)
    (hinner : ∀ child slots, slots.Throughout registry Readable child →
      ReadsInto nested registry levels error child slots)
    (hbase : base.WellFormed registry type) (hbytes : encode registry type record = .ok bytes)
    (hlength : bytes.length < lengthBound) :
    ∃ fields, Yields type bytes fields ∧ fields.foldlM (apply nested registry type) base
      = if record.depth ≤ levels then .ok (base.merge (registry.canonical type record))
        else .error error := by
  obtain ⟨pieces, hpieces, rfl⟩ := encode_eq_ok_iff.1 hbytes
  have hfills : ∀ i ∈ type.wireOrder,
      Fills (apply nested registry type) type i (pieces i) (base.value? i)
        (if record.depthAt i ≤ levels then
          .ok (Value.mergeSlot (base.value? i) ((registry.canonical type record).value? i))
        else .error error) := by
    intro i hi
    obtain ⟨field, hfield⟩ := mem_wireOrder.1 hi
    have hle := length_le_length_flatMap pieces hi
    refine fills_of_pieces hpieces h.holds hbase hfield (by omega) ?_
    intro v name slots child hv hholds hchild
    exact hinner child slots (h.inner hfield hv hholds hchild)
  have hnodup : type.wireOrder.Nodup := type.wireOrder_perm.nodup_iff.2 List.nodup_range
  obtain ⟨fields, hyields, hfold⟩ := foldlM_of_fills hnodup hfills
  refine ⟨fields, hyields, ?_⟩
  have hbefore : ∀ i ∈ type.wireOrder, base[i]? = some (base.value? i) := by
    intro i hi
    obtain ⟨field, hfield⟩ := mem_wireOrder.1 hi
    exact hbase.holds.getElem? hfield
  rw [hfold base hbefore,
    foldl_set_mergeSlot hbase.holds.length_eq (shaped_canonical hbytes).length_eq]
  simp only [forall_depthAt_le_iff hpieces.length_le]

/-- What the writer makes of a record is merged into any record of the type on as many levels as
there are. -/
theorem merge_encode_into (levels : Nat) {record : Record}
    (h : record.Throughout registry Readable type) :
    ReadsInto (merge registry levels) registry levels
      (.recursionLimit registry.options.recursionLimit) type record := by
  induction levels generalizing type record with
  | zero =>
    intro base bytes _ _ _
    rw [if_neg (Nat.not_lt_zero _)]
    rfl
  | succ levels ih =>
    intro base bytes hbase hbytes hlength
    obtain ⟨fields, hyields, hfold⟩ :=
      exists_fields_of_encode h (fun _ _ hslots => ih hslots) hbase hbytes hlength
    rw [merge, foldFields_of_yields hyields, hfold]
    simp only [Nat.lt_succ_iff]

/-- What the writer makes of a record is read back on as many levels as there are. -/
theorem merge_encode (levels : Nat) {record : Record}
    (h : record.Throughout registry Readable type) :
    ReadsBack (merge registry levels) registry levels
      (.recursionLimit registry.options.recursionLimit) type record :=
  (merge_encode_into levels h).readsBack

/-! ## The round trip -/

/-- Where no type that a type refers to has two fields with one number, all records of the type are
readable throughout. -/
theorem throughout_readable_of_refers {name : String} (hregistry : registry.Reachable)
    (htype : registry.messageType name = .ok type)
    (hdistinct : ∀ child, registry.Refers type child → (child.fields.map Field.number).Nodup)
    (record : Record) : record.Throughout registry Readable type := by
  refine Record.throughout_of_refers (fun child slots hchild i field v hfield _ => .inl ?_) record
  obtain ⟨name, hname⟩ := Registry.exists_messageType_of_refers htype hchild
  have hnumber := Registry.numbered_of_messageType hregistry hname field
    (List.mem_of_getElem? hfield)
  exact ⟨hfield, MessageType.indexOfNumber?_of_nodup (hdistinct child hchild) hfield, hnumber.1,
    Nat.lt_succ_of_le hnumber.2⟩

/-- Where no type has two fields with one number, all records are readable throughout. -/
theorem throughout_readable {name : String} (hregistry : registry.Reachable)
    (hdistinct : registry.DistinctNumbers) (htype : registry.messageType name = .ok type)
    (record : Record) : record.Throughout registry Readable type :=
  throughout_readable_of_refers hregistry htype (fun _ => hdistinct.nodup_of_refers htype) record

/-- What was written is read back: as the canonical record if messages are nested as deeply in it as
the recursion limit says or less, and as the error for the limit otherwise. -/
theorem decode_encode {name : String} {record : Record} {bytes : Bytes}
    (hregistry : registry.Reachable) (hdistinct : registry.DistinctNumbers)
    (htype : registry.messageType name = .ok type)
    (hbytes : encode registry type record = .ok bytes) (hlength : bytes.length < lengthBound) :
    decode registry type bytes
      = if record.depth ≤ registry.options.recursionLimit.toNat then
          .ok (registry.canonical type record)
        else .error (.recursionLimit registry.options.recursionLimit) := by
  have hread := merge_encode (registry.options.recursionLimit.toNat + 1)
    (throughout_readable hregistry hdistinct htype record) bytes hbytes hlength
  simp only [Nat.lt_succ_iff] at hread
  exact hread

/-- A tree without its last slot, with a child that has no slot but one, comes back whole. -/
theorem decode_encode_short_tree :
    decode (treeRegistry {}) treeType [8, 7, 18, 2, 8, 5]
      = .ok [some (.i32 7),
          some (.list [.message [some (.i32 5), some (.list []), some (.map [])]]),
          some (.map [])] :=
  decode_encode (Registry.reachable_tree {}) (Registry.distinctNumbers_tree {})
    (show (treeRegistry {}).messageType "Tree" = .ok treeType from rfl)
    (show encode (treeRegistry {}) treeType
      [some (.i32 7), some (.list [.message [some (.i32 5)]])] = _ by cbv) (by decide)

end DynProto.Binary
