import DynProto.Registry.Basic
import DynProto.Wire.Content

/-!
# Reading messages in binary

The octets of a message are first cut into the fields that occur in them, by the kinds that the
message type gives (`fieldReader`, `occurrences`); nested messages and map entries stay uncut at
first. The occurrences are then applied to a record one after the other (`apply`): a single value
replaces what is in its slot, repeated values are appended, a nested message is merged into the one
that is there, and a map entry is inserted. A fault in the octets counts only after all occurrences
before it.

Reading descends on the number of nestings still allowed. The entry of a map is read as a message of
the two-field type `entryType` on the level of the message around it.
-/

namespace DynProto.Binary

open Wire

/-! ## Occurrences -/

/-- A field that occurs in the octets of a message; `index` is its place in the message type. -/
inductive Occurrence where
  /-- A field that the type does not have. -/
  | unknown
  /-- A value of a single field. -/
  | value (index : Nat) (v : Value)
  /-- Values of a repeated field. -/
  | elements (index : Nat) (vs : List Value)
  /-- The octets of a message of a type, for a single or a repeated field. -/
  | nested (index : Nat) (type : String) (repeated : Bool) (body : Bytes)
  /-- The octets of an entry of a map field. -/
  | entry (index : Nat) (key : Scalar) (value : MapValue) (body : Bytes)
deriving Repr

/-- A reader for content with the expected wire type. -/
def expecting {α : Type} (expected found : WireType) (r : Reader Wire.Fault α) :
    Reader Wire.Fault α :=
  if found = expected then r else Reader.fail (.mismatch found expected)

/-- Values of a repeated field, either one value or, if they can be packed, a block of them. -/
def elementsReader (wireType found : WireType) (packable : Bool) (r : Reader Wire.Fault Value) :
    Reader Wire.Fault (List Value) :=
  if packable && found == .delimited then Reader.packed id r
  else (expecting wireType found r).map fun v => [v]

/-- The number of an enum value. -/
def enumReader : Reader Wire.Fault Value :=
  Scalar.int32Reader.map .enum

/-- The content of a field at a place of the type, of a kind and with a wire type. -/
def contentReader (index : Nat) (wireType : WireType) : FieldKind → Reader Wire.Fault Occurrence
  | .scalar kind false => (expecting kind.wireType wireType kind.reader).map (.value index)
  | .scalar kind true =>
    (elementsReader kind.wireType wireType kind.isPackable kind.reader).map (.elements index)
  | .enum _ false => (expecting .varint wireType enumReader).map (.value index)
  | .enum _ true => (elementsReader .varint wireType true enumReader).map (.elements index)
  | .message type repeated =>
    (expecting .delimited wireType Reader.body).map (.nested index type repeated)
  | .map key value => (expecting .delimited wireType Reader.body).map (.entry index key value)

/-- The next field of a message. -/
def fieldReader (type : MessageType) : Reader Wire.Fault Occurrence :=
  Reader.key.andThen fun key =>
    match (type.indexOfNumber? key.number).bind fun index =>
        (type.fields[index]?).map fun field => (index, field) with
    | some (index, field) => contentReader index key.wireType field.kind
    | none => (Reader.skip skipDepth key).map fun _ => .unknown

/-- The fields of a message as far as they can be read, and what is wrong behind them. -/
def occurrences (type : MessageType) (bytes : Bytes) : List Occurrence × Option Wire.Fault :=
  if bytes.isEmpty then ([], none)
  else
    match _h : (fieldReader type).run bytes with
    | .error fault => ([], some fault)
    | .ok (occurrence, rest) =>
      let (more, fault) := occurrences type rest
      (occurrence :: more, fault)
termination_by bytes.length
decreasing_by exact (fieldReader type).shorter _h

/-! ## Applying occurrences to a record -/

/-- The list in a slot; empty if the slot holds none. -/
def listOf : Option Value → List Value
  | some (.list vs) => vs
  | _ => []

/-- The entries in a slot; empty if the slot holds no map. -/
def entriesOf : Option Value → OrderedMap MapKey Value
  | some (.map entries) => entries
  | _ => []

/-- The message in a slot, or the default if the slot holds none. -/
def messageOf (default : Record) : Option Value → Record
  | some (.message slots) => slots
  | _ => default

/-- The type of a map entry: the key as field 1 and the value as field 2. Faults in an entry are
told of the message that holds the map, so the entry goes by its name. -/
def entryType (owner : String) (key : Scalar) (value : MapValue) : MessageType where
  name := owner
  fields :=
    let valueKind : FieldKind :=
      match value with
      | .scalar kind => .scalar kind false
      | .enum type => .enum type false
      | .message type => .message type false
    [⟨1, "key", none, .scalar key false⟩, ⟨2, "value", none, valueKind⟩]

/-- The record with the slot at a place changed. -/
def update (type : MessageType) (record : Record) (index : Nat)
    (f : Option Value → Except CodecError Value) : Except CodecError Record :=
  match record[index]? with
  | none => .error (.decode type.name .missingSlot)
  | some slot => do
    let v ← f slot
    .ok (record.set index (some v))

/-- The record with the fields that occur in octets applied to it by `step`. -/
def foldFields (type : MessageType) (step : Record → Occurrence → Except CodecError Record)
    (record : Record) (bytes : Bytes) : Except CodecError Record := do
  let (fields, fault) := occurrences type bytes
  let record ← fields.foldlM step record
  match fault with
  | none => .ok record
  | some fault => .error (.decode type.name (.wire fault))

/-- A reader of nested messages: of a type, into a record, from octets. -/
abbrev Nested := MessageType → Record → Bytes → Except CodecError Record

/-- The record with an occurrence applied that is no map entry; `nested` reads the messages
inside. -/
def applyPlain (nested : Nested) (registry : Registry) (type : MessageType) (record : Record) :
    Occurrence → Except CodecError Record
  | .unknown => .ok record
  | .value index v => update type record index fun _ => .ok v
  | .elements index vs => update type record index fun slot => .ok (.list (listOf slot ++ vs))
  | .nested index name repeated body => update type record index fun slot => do
    let child ← registry.codecMessageType name
    if repeated then do
      let inner ← nested child child.defaultRecord body
      .ok (.list (listOf slot ++ [.message inner]))
    else do
      let inner ← nested child (messageOf child.defaultRecord slot) body
      .ok (.message inner)
  | .entry _ _ _ _ => .ok record

/-- The key and the value in the record of a map entry. A value that is not set is the default
message. -/
def entryOf (registry : Registry) (owner : String) (key : Scalar) (value : MapValue)
    (record : Record) : Except CodecError (MapKey × Value) := do
  let v ←
    match record.value? 1, value with
    | some v, _ => .ok v
    | none, .scalar kind => .ok (Value.scalarDefault kind)
    | none, .enum _ => .ok (.enum 0)
    | none, .message name => do
      let child ← registry.codecMessageType name
      .ok (.message child.defaultRecord)
  match (record.value? 0).bind MapKey.ofValue? with
  | some k => .ok (k, v)
  | none => .error (.decode owner (.mapKey key))

/-- The record with an occurrence applied; `nested` reads the messages inside. -/
def apply (nested : Nested) (registry : Registry) (type : MessageType) (record : Record) :
    Occurrence → Except CodecError Record
  | .entry index key value body => update type record index fun slot => do
    let pair := entryType type.name key value
    let inner ← foldFields pair (applyPlain nested registry pair) pair.defaultRecord body
    let (k, v) ← entryOf registry type.name key value inner
    .ok (.map (OrderedMap.insert k v (entriesOf slot)))
  | occurrence => applyPlain nested registry type record occurrence

/-! ## Messages -/

/-- The record with the fields in octets merged into it, where messages may be nested on `levels`
levels, this one included. -/
def merge (registry : Registry) : Nat → Nested
  | 0, _, _, _ => .error (.recursionLimit registry.options.recursionLimit)
  | levels + 1, type, record, bytes =>
    foldFields type (apply (merge registry levels) registry type) record bytes

/-- The record of a type that octets stand for. A message may be nested as deeply as the recursion
limit says, below the outermost one. -/
def decode (registry : Registry) (type : MessageType) (bytes : Bytes) :
    Except CodecError Record :=
  merge registry (registry.options.recursionLimit.toNat + 1) type type.defaultRecord bytes

end DynProto.Binary
