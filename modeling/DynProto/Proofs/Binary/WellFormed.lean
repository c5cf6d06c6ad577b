import DynProto.Binary.Reader
import DynProto.Proofs.Record.WellFormed
import DynProto.Proofs.Traversal
import DynProto.Proofs.Wire.Content

/-!
# Records read from octets are well-formed

Whatever the octets are, a record that is read from them is of its type and clear, and so are all
messages inside it (`regular_of_decode`). What occurs in octets belongs to the field that its number
leads to (`Occurrence.Belongs`); applying such an occurrence keeps the property, and so does reading
all of them, level by level.
-/

namespace DynProto.Binary

open Wire

variable {registry : Registry} {type : MessageType}

/-! ## What occurs belongs to a field -/

/-- An occurrence belongs to the field at its place, to which the number of the field leads, and
brings what the field calls for. -/
inductive Occurrence.Belongs (registry : Registry) (type : MessageType) : Occurrence → Prop
  /-- A field that the type does not have. -/
  | unknown : Belongs registry type .unknown
  /-- A value of the right sort. -/
  | value {index : Nat} {field : Field} {v : Value} (hfield : type.fields[index]? = some field)
    (hindex : type.indexOfNumber? field.number = some index)
    (hsuits : field.kind.Suits registry v) (hdepth : v.depth = 0) :
    Belongs registry type (.value index v)
  /-- A list of the right sort. -/
  | elements {index : Nat} {field : Field} {vs : List Value}
    (hfield : type.fields[index]? = some field)
    (hindex : type.indexOfNumber? field.number = some index)
    (hsuits : field.kind.Suits registry (.list vs)) (hdepth : (Value.list vs).depth = 0) :
    Belongs registry type (.elements index vs)
  /-- The octets of a message of the right type. -/
  | nested {index : Nat} {field : Field} {name : String} {repeated : Bool} {body : Bytes}
    (hfield : type.fields[index]? = some field)
    (hindex : type.indexOfNumber? field.number = some index)
    (hkind : field.kind = .message name repeated) :
    Belongs registry type (.nested index name repeated body)
  /-- The octets of an entry of the right map. -/
  | entry {index : Nat} {field : Field} {key : Scalar} {value : MapValue} {body : Bytes}
    (hfield : type.fields[index]? = some field)
    (hindex : type.indexOfNumber? field.number = some index)
    (hkind : field.kind = .map key value) :
    Belongs registry type (.entry index key value body)

/-- What content with the expected wire type gives, any content gives that is accepted. -/
theorem gives_expecting {α : Type} {P : α → Prop} {r : Reader Wire.Fault α} (h : r.Gives P)
    (expected found : WireType) : (expecting expected found r).Gives P := by
  unfold expecting
  split
  · exact h
  · exact Reader.gives_fail _

/-- Elements are what the reader of an element gives. -/
theorem gives_elementsReader {P : Value → Prop} {r : Reader Wire.Fault Value} (h : r.Gives P)
    (wireType found : WireType) (packable : Bool) :
    (elementsReader wireType found packable r).Gives fun vs => ∀ v ∈ vs, P v := by
  unfold elementsReader
  split
  · exact h.packed id
  · exact (gives_expecting h _ _).map fun v hv => by simpa using hv

/-- The reader of enum values gives numbers of enum values. -/
theorem gives_enumReader : enumReader.Gives fun v => ∃ n, v = .enum n :=
  (Reader.gives_true _).map fun n _ => ⟨n, rfl⟩

/-- The content of a field belongs to it. -/
theorem gives_contentReader {index : Nat} {field : Field}
    (hfield : type.fields[index]? = some field)
    (hindex : type.indexOfNumber? field.number = some index) (wireType : WireType) :
    (contentReader index wireType field.kind).Gives (Occurrence.Belongs registry type) := by
  rcases hkind : field.kind with ⟨kind, _ | _⟩ | ⟨name, _ | _⟩ | ⟨name, repeated⟩ | ⟨key, value⟩
  case scalar.false =>
    refine (gives_expecting (Scalar.gives_fits kind) _ _).map fun v hv => ?_
    exact .value hfield hindex (hkind ▸ .scalar hv) (Value.depth_of_fits hv)
  case scalar.true =>
    refine (gives_elementsReader (Scalar.gives_fits kind) _ _ _).map fun vs hvs => ?_
    exact .elements hfield hindex (hkind ▸ .scalars hvs)
      (Value.depth_list_eq_zero fun v hv => Value.depth_of_fits (hvs v hv))
  case enum.false =>
    refine (gives_expecting gives_enumReader _ _).map ?_
    rintro _ ⟨n, rfl⟩
    exact .value hfield hindex (hkind ▸ .enum) rfl
  case enum.true =>
    refine (gives_elementsReader gives_enumReader _ _ _).map fun vs hvs => ?_
    refine .elements hfield hindex (hkind ▸ .enums hvs) (Value.depth_list_eq_zero fun v hv => ?_)
    obtain ⟨n, rfl⟩ := hvs v hv
    rfl
  case message =>
    exact (gives_expecting (Reader.gives_true _) _ _).map fun body _ => .nested hfield hindex hkind
  case map =>
    exact (gives_expecting (Reader.gives_true _) _ _).map fun body _ => .entry hfield hindex hkind

/-- The next field of a message belongs to it. -/
theorem gives_fieldReader : (fieldReader type).Gives (Occurrence.Belongs registry type) := by
  refine (Reader.gives_true _).andThen fun key _ => ?_
  rcases hindex : type.indexOfNumber? key.number with _ | index
  · exact (Reader.gives_true _).map fun _ _ => .unknown
  · obtain ⟨field, hfield, hnumber⟩ := MessageType.exists_of_indexOfNumber? hindex
    simp only [Option.bind_some, hfield, Option.map_some]
    exact gives_contentReader hfield (hnumber ▸ hindex) key.wireType

/-- What occurs in octets is the field at the front, if one can be read, and what occurs behind. -/
theorem occurrences_eq (type : MessageType) (bytes : Bytes) :
    occurrences type bytes
      = if bytes.isEmpty then ([], none)
        else match (fieldReader type).run bytes with
          | .error fault => ([], some fault)
          | .ok (occurrence, rest) =>
            (occurrence :: (occurrences type rest).1, (occurrences type rest).2) := by
  rw [occurrences]
  split_ifs with hempty
  · rfl
  · split <;> rename_i hrun <;> rw [hrun]

/-- Nothing occurs in no octets. -/
theorem occurrences_nil (type : MessageType) : occurrences type [] = ([], none) := by
  rw [occurrences_eq]
  rfl

/-- What is read as a field occurs first. -/
theorem occurrences_of_run {bytes rest : Bytes} {occurrence : Occurrence}
    (h : (fieldReader type).run bytes = .ok (occurrence, rest)) :
    occurrences type bytes
      = (occurrence :: (occurrences type rest).1, (occurrences type rest).2) := by
  have hempty : bytes.isEmpty = false := by
    have hlt := (fieldReader type).shorter h
    rw [List.isEmpty_eq_false_iff]
    rintro rfl
    exact absurd hlt (Nat.not_lt_zero _)
  rw [occurrences_eq, hempty, h]
  rfl

/-- Every field that occurs in octets belongs to the message. -/
theorem belongs_of_mem_occurrences {bytes : Bytes} :
    ∀ occurrence ∈ (occurrences type bytes).1, occurrence.Belongs registry type := by
  induction hn : bytes.length using Nat.strongRecOn generalizing bytes with
  | ind n ih =>
    rw [occurrences_eq]
    split_ifs
    · exact fun _ h => absurd h List.not_mem_nil
    · split
      · exact fun _ h => absurd h List.not_mem_nil
      · rename_i occurrence rest hrun
        have hlt := (fieldReader type).shorter hrun
        exact List.forall_mem_cons.2 ⟨gives_fieldReader _ _ _ hrun, ih rest.length (by omega) rfl⟩

/-- Reading succeeds if nothing is wrong with the octets and every field can be applied. -/
theorem foldFields_eq_ok_iff {step : Record → Occurrence → Except CodecError Record}
    {record result : Record} {bytes : Bytes} :
    foldFields type step record bytes = .ok result ↔
      (occurrences type bytes).2 = none ∧
        (occurrences type bytes).1.foldlM step record = .ok result := by
  unfold foldFields
  rcases occurrences type bytes with ⟨fields, _ | fault⟩
  · show (fields.foldlM step record >>= fun record => .ok record) = _ ↔ _
    rcases fields.foldlM step record with error | last <;> simp [bind, Except.bind]
  · show (fields.foldlM step record >>= fun _ => .error _) = _ ↔ _
    rcases fields.foldlM step record with error | last <;> simp [bind, Except.bind]

/-- What each field that belongs to a message preserves, reading the message preserves. -/
theorem foldFields_preserves {step : Record → Occurrence → Except CodecError Record}
    (Inv : Record → Prop) (hstep : ∀ record occurrence next, occurrence.Belongs registry type →
      Inv record → step record occurrence = .ok next → Inv next)
    {record result : Record} {bytes : Bytes} (hrecord : Inv record)
    (h : foldFields type step record bytes = .ok result) : Inv result := by
  exact foldlM_preserves Inv
    (fun record occurrence next hmem => hstep record occurrence next
      (belongs_of_mem_occurrences occurrence hmem)) hrecord (foldFields_eq_ok_iff.1 h).2

/-! ## Steps -/

/-- A record is of its type and clear, and so are the messages inside. -/
def Regular (registry : Registry) (type : MessageType) (record : Record) : Prop :=
  record.Throughout registry
    (fun type record => record.Shaped registry type ∧ record.Clear type) type

/-- The default record is regular. -/
theorem regular_defaultRecord (registry : Registry) (type : MessageType) :
    Regular registry type type.defaultRecord :=
  Record.throughout_defaultRecord
    ⟨Record.shaped_defaultRecord registry type, Record.clear_defaultRecord type⟩

variable {record next : Record} {index : Nat} {field : Field} {slot : Option Value} {v : Value}

/-- The messages that the value of a field holds are regular. -/
def RegularInside (registry : Registry) (kind : FieldKind) (v : Value) : Prop :=
  Record.Inside registry
    (fun type record => record.Shaped registry type ∧ record.Clear type) kind v

/-- Setting the first field with a number to a value of the right sort keeps a record regular. -/
theorem Regular.set (h : Regular registry type record) (hfield : type.fields[index]? = some field)
    (hindex : type.indexOfNumber? field.number = some index) (hsuits : field.kind.Suits registry v)
    (hinside : RegularInside registry field.kind v) :
    Regular registry type (record.set index (some v)) :=
  Record.Throughout.set h hfield ⟨h.holds.1.set hfield hsuits, h.holds.2.set v hfield hindex⟩
    hinside

/-- An update that succeeds sets a slot that exists. -/
theorem update_eq_ok {f : Option Value → Except CodecError Value}
    (h : update type record index f = .ok next) : ∃ slot v, record[index]? = some slot ∧
      f slot = .ok v ∧ next = record.set index (some v) := by
  unfold update at h
  split at h
  · cases h
  · rename_i slot hslot
    obtain ⟨v, hv, h⟩ := except_bind_eq_ok.1 h
    cases h
    exact ⟨slot, v, hslot, hv, rfl⟩

/-- The list in a slot of a regular record is a list of the right sort, and regular inside. -/
theorem Regular.listOf (h : Regular registry type record)
    (hfield : type.fields[index]? = some field)
    (hslot : record[index]? = some slot) {vs : List Value}
    (hkind : field.kind.Suits registry (.list vs)) :
    field.kind.Suits registry (.list (listOf slot)) ∧
      RegularInside registry field.kind (.list (listOf slot)) := by
  unfold Binary.listOf
  split
  · have hv := Option.join_eq_some_iff.2 hslot
    exact ⟨h.holds.1.suits index field _ hfield hv, h.inside hfield hv⟩
  · exact ⟨hkind.nil, Record.inside_of_depth_eq_zero rfl⟩

/-- A list is appended to the one in its slot. -/
theorem Regular.append (h : Regular registry type record)
    (hfield : type.fields[index]? = some field)
    (hindex : type.indexOfNumber? field.number = some index) (hslot : record[index]? = some slot)
    {vs : List Value} (hsuits : field.kind.Suits registry (.list vs))
    (hinside : RegularInside registry field.kind (.list vs)) :
    Regular registry type (record.set index (some (.list (Binary.listOf slot ++ vs)))) := by
  obtain ⟨hold, hinside'⟩ := h.listOf hfield hslot hsuits
  exact h.set hfield hindex (hold.append hsuits) (hinside'.append hinside)

/-- What holds throughout a record and of all default records holds throughout the message in a
slot, or the default in its place. -/
theorem throughout_messageOf {P : MessageType → Record → Prop}
    (hdefault : ∀ type, P type type.defaultRecord) (h : record.Throughout registry P type)
    (hfield : type.fields[index]? = some field) (hslot : record.value? index = slot) {name : String}
    (hkind : field.kind = .message name false) {child : MessageType}
    (hchild : registry.codecMessageType name = .ok child) :
    (messageOf child.defaultRecord slot).Throughout registry P child := by
  unfold Binary.messageOf
  split
  · exact h.inner hfield hslot (hkind ▸ .single) hchild
  · exact Record.throughout_defaultRecord (hdefault child)

/-- The message in a slot of a regular record is regular, and so is the default in its place. -/
theorem Regular.messageOf (h : Regular registry type record)
    (hfield : type.fields[index]? = some field) (hslot : record[index]? = some slot) {name : String}
    (hkind : field.kind = .message name false) {child : MessageType}
    (hchild : registry.codecMessageType name = .ok child) :
    Regular registry child (messageOf child.defaultRecord slot) := by
  have hdefault : ∀ type : MessageType,
      Record.Shaped registry type type.defaultRecord ∧ Record.Clear type type.defaultRecord :=
    fun type => ⟨Record.shaped_defaultRecord registry type, Record.clear_defaultRecord type⟩
  have hvalue : record.value? index = slot := by
    rw [Record.value?, hslot]
    rfl
  exact throughout_messageOf hdefault h hfield hvalue hkind hchild

/-- A reader of nested messages that keeps records regular. -/
def KeepsRegular (registry : Registry) (nested : Nested) : Prop :=
  ∀ type record bytes next, Regular registry type record → nested type record bytes = .ok next →
    Regular registry type next

variable {nested : Nested} {occurrence : Occurrence}

/-- Applying an occurrence that belongs to a field keeps a record regular, map entries aside. -/
theorem regular_applyPlain (hnested : KeepsRegular registry nested)
    (hbelongs : occurrence.Belongs registry type) (h : Regular registry type record)
    (hnext : applyPlain nested registry type record occurrence = .ok next) :
    Regular registry type next := by
  rcases hbelongs with _ | ⟨hfield, hindex, hsuits, hdepth⟩ | ⟨hfield, hindex, hsuits, hdepth⟩ |
    @⟨index, field, name, repeated, body, hfield, hindex, hkind⟩ | ⟨hfield, hindex, hkind⟩
  case unknown | entry =>
    cases hnext
    exact h
  all_goals obtain ⟨slot, v, hslot, hv, rfl⟩ := update_eq_ok hnext
  case value =>
    cases hv
    exact h.set hfield hindex hsuits (Record.inside_of_depth_eq_zero hdepth)
  case elements =>
    cases hv
    exact h.append hfield hindex hslot hsuits (Record.inside_of_depth_eq_zero hdepth)
  case nested =>
    obtain ⟨child, hchild, hv⟩ := except_bind_eq_ok.1 hv
    cases repeated <;> obtain ⟨inner, hinner, hv⟩ := except_bind_eq_ok.1 hv <;> cases hv
    · have hregular := hnested _ _ _ _ (h.messageOf hfield hslot hkind hchild) hinner
      exact h.set hfield hindex (hkind ▸ .message hchild)
        (hkind ▸ Record.inside_message hchild hregular)
    · have hregular := hnested _ _ _ _ (regular_defaultRecord registry child) hinner
      have hinside : RegularInside registry (.message name true) (.list ([inner].map .message)) :=
        Record.inside_messages hchild (List.forall_mem_singleton.2 hregular)
      refine h.append hfield hindex hslot (hkind ▸ .messages fun v hv => ?_) (hkind ▸ hinside)
      exact ⟨inner, child, List.mem_singleton.1 hv, hchild⟩

/-! ## Map entries -/

/-- The fields of the type of a map entry. -/
theorem entryType_fields (owner : String) (key : Scalar) (value : MapValue) :
    (entryType owner key value).fields
      = [⟨1, "key", none, .scalar key false⟩, ⟨2, "value", none, value.fieldKind⟩] := by
  cases value <;> rfl

/-- The key of an entry is the value in its first slot; the value is the one in its second slot, or
a default where there is none. -/
theorem entryOf_eq_ok {owner : String} {key : Scalar} {value : MapValue} {inner : Record}
    {k : MapKey} (h : entryOf registry owner key value inner = .ok (k, v)) :
    (inner.value? 0).bind MapKey.ofValue? = some k ∧
      (inner.value? 1 = some v ∨ value.fieldKind.default = some v ∨
        ∃ name child, value = .message name ∧ registry.codecMessageType name = .ok child ∧
          v = .message child.defaultRecord) := by
  unfold entryOf at h
  rcases hk : (inner.value? 0).bind MapKey.ofValue? with _ | k' <;> rw [hk] at h
  case none =>
    -- without a key there is no entry, whatever the value is
    rcases hslot : inner.value? 1 with _ | v' <;> rw [hslot] at h
    · rcases value with kind | name | name
      · cases h
      · cases h
      · obtain ⟨child, _, h⟩ := except_bind_eq_ok.1 h
        cases h
    · cases h
  case some =>
    rcases hslot : inner.value? 1 with _ | v' <;> rw [hslot] at h
    · rcases value with kind | name | name
      · cases h
        exact ⟨rfl, .inr (.inl rfl)⟩
      · cases h
        exact ⟨rfl, .inr (.inl rfl)⟩
      · obtain ⟨child, hchild, h⟩ := except_bind_eq_ok.1 h
        cases h
        exact ⟨rfl, .inr (.inr ⟨name, child, rfl, hchild, rfl⟩)⟩
    · cases h
      exact ⟨rfl, .inl rfl⟩

/-- The key and the value of an entry are of the right sorts, and the value is regular inside. -/
theorem regular_entryOf {owner : String} {key : Scalar} {value : MapValue} {inner : Record}
    (h : Regular registry (entryType owner key value) inner) {k : MapKey}
    (hentry : entryOf registry owner key value inner = .ok (k, v)) :
    k.toValue.fits key = true ∧ value.fieldKind.Suits registry v ∧
      RegularInside registry value.fieldKind v := by
  obtain ⟨hk, hv⟩ := entryOf_eq_ok hentry
  constructor
  · obtain ⟨keyValue, hslot, hk⟩ := Option.bind_eq_some_iff.1 hk
    have hfield : (entryType owner key value).fields[0]?
        = some ⟨1, "key", none, .scalar key false⟩ := by
      rw [entryType_fields]
      rfl
    rw [MapKey.toValue_of_ofValue? hk]
    exact (h.holds.1.suits 0 _ _ hfield hslot).fits
  · rcases hv with hslot | hdefault | ⟨name, child, rfl, hchild, rfl⟩
    · have hfield : (entryType owner key value).fields[1]?
          = some ⟨2, "value", none, value.fieldKind⟩ := by
        rw [entryType_fields]
        rfl
      exact ⟨h.holds.1.suits 1 _ _ hfield hslot, h.inside hfield hslot⟩
    · exact ⟨FieldKind.suits_default hdefault,
        Record.inside_of_depth_eq_zero (FieldKind.depth_default hdefault)⟩
    · exact ⟨.message hchild, Record.inside_message hchild (regular_defaultRecord registry child)⟩

/-- The entries in a slot of a regular record make a map of the right sort, and regular inside. -/
theorem Regular.entriesOf (h : Regular registry type record)
    (hfield : type.fields[index]? = some field) (hslot : record[index]? = some slot) {key : Scalar}
    {value : MapValue} (hkind : field.kind = .map key value) :
    (FieldKind.map key value).Suits registry (.map (entriesOf slot)) ∧
      RegularInside registry (.map key value) (.map (entriesOf slot)) := by
  unfold Binary.entriesOf
  split
  · have hv := Option.join_eq_some_iff.2 hslot
    exact ⟨hkind ▸ h.holds.1.suits index field _ hfield hv, hkind ▸ h.inside hfield hv⟩
  · exact ⟨.map List.Pairwise.nil (by simp) (by simp), Record.inside_of_depth_eq_zero rfl⟩

/-- Applying an occurrence that belongs to a field keeps a record regular. -/
theorem regular_apply (hnested : KeepsRegular registry nested)
    (hbelongs : occurrence.Belongs registry type) (h : Regular registry type record)
    (hnext : apply nested registry type record occurrence = .ok next) :
    Regular registry type next := by
  by_cases hentry : ∃ index key value body, occurrence = .entry index key value body
  · obtain ⟨index, key, value, body, rfl⟩ := hentry
    rcases hbelongs with _ | _ | _ | _ | ⟨hfield, hindex, hkind⟩
    obtain ⟨slot, v, hslot, hv, rfl⟩ := update_eq_ok hnext
    obtain ⟨inner, hinner, hv⟩ := except_bind_eq_ok.1 hv
    obtain ⟨⟨k, v⟩, hentry, hv⟩ := except_bind_eq_ok.1 hv
    cases hv
    have hregular := foldFields_preserves (Regular registry (entryType type.name key value))
      (fun _ _ _ hbelongs hrecord hstep => regular_applyPlain hnested hbelongs hrecord hstep)
      (regular_defaultRecord registry _) hinner
    obtain ⟨hkey, hvalue, hinside⟩ := regular_entryOf hregular hentry
    obtain ⟨hold, hinside'⟩ := h.entriesOf hfield hslot hkind
    exact h.set hfield hindex (hkind ▸ hold.insert hkey hvalue) (hkind ▸ hinside'.insert hinside)
  · refine regular_applyPlain hnested hbelongs h ?_
    cases occurrence
    case entry => exact absurd ⟨_, _, _, _, rfl⟩ hentry
    all_goals exact hnext

/-! ## Messages -/

/-- Reading octets into a regular record gives a regular record. -/
theorem keepsRegular_merge (registry : Registry) (levels : Nat) :
    KeepsRegular registry (merge registry levels) := by
  induction levels with
  | zero => exact fun _ _ _ _ _ h => nomatch h
  | succ levels ih =>
    intro type record bytes next h hnext
    exact foldFields_preserves (Regular registry type)
      (fun _ _ _ hbelongs hrecord hstep => regular_apply ih hbelongs hrecord hstep) h hnext

/-- A record that is read from octets is regular. -/
theorem regular_of_decode {bytes : Bytes} (h : decode registry type bytes = .ok record) :
    Regular registry type record :=
  keepsRegular_merge registry _ _ _ _ _ (regular_defaultRecord registry type) h

/-- A record that is read from octets is of its type throughout. -/
theorem wellFormed_of_decode {bytes : Bytes} (h : decode registry type bytes = .ok record) :
    record.WellFormed registry type :=
  (regular_of_decode h).mono fun _ _ => And.left

end DynProto.Binary
