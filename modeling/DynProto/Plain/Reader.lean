import DynProto.Plain.Conversion
import DynProto.Registry.Basic

/-!
# Reading messages from plain objects

A message is given as a JSON object whose keys name its fields, each by any of the field's three
names. Fields that are not given keep their default, and so do those given as `null`; of two keys
that name one field the later in the order of keys counts. Keys that name no field are refused or
ignored, as the caller says.

Reading descends on the number of nestings still allowed.
-/

namespace DynProto.Plain

/-- Whether keys that name no field are refused. -/
inductive UnknownKeys where
  /-- They are passed over. -/
  | ignore
  /-- They are an error. -/
  | refuse
deriving DecidableEq, Repr

/-- A reader of nested messages: of a type, from a value. -/
abbrev Nested := MessageType → Json → Except CodecError Record

/-- The value of a field from what is wrong or right with its JSON value. -/
def ofField {α : Type} (owner : String) (field : Field) (result : Except PlainReason α) :
    Except CodecError α :=
  result.mapError fun reason => .json owner (.field field.name reason)

/-- The value of an entry of a map field. -/
def readEntryValue (nested : Nested) (registry : Registry) (owner : String) (field : Field)
    (value : MapValue) (json : Json) : Except CodecError Value :=
  match value with
  | .scalar kind => ofField owner field (readScalar kind json)
  | .enum name => do
    let type ← registry.codecEnumType name
    let n ← ofField owner field (readEnum type json)
    .ok (.enum n)
  | .message name => do
    let type ← registry.codecMessageType name
    let inner ← nested type json
    .ok (.message inner)

/-- The value of a field; `nested` reads the messages inside. -/
def readField (nested : Nested) (registry : Registry) (owner : String) (field : Field)
    (json : Json) : Except CodecError Value :=
  match field.kind with
  | .scalar kind false => ofField owner field (readScalar kind json)
  | .scalar kind true => do
    let items ← ofField owner field (readItems json)
    let vs ← ofField owner field (items.mapM (readScalar kind))
    .ok (.list vs)
  | .enum name false => do
    let type ← registry.codecEnumType name
    let n ← ofField owner field (readEnum type json)
    .ok (.enum n)
  | .enum name true => do
    let type ← registry.codecEnumType name
    let items ← ofField owner field (readItems json)
    let numbers ← ofField owner field (items.mapM (readEnum type))
    .ok (.list (numbers.map .enum))
  | .message name false => do
    let type ← registry.codecMessageType name
    let inner ← nested type json
    .ok (.message inner)
  | .message name true => do
    let type ← registry.codecMessageType name
    let items ← ofField owner field (readItems json)
    let records ← items.mapM (nested type)
    .ok (.list (records.map .message))
  | .map key value =>
    match json with
    | .object members => do
      let entries ← members.foldlM (fun entries (k, v) => do
        let mapKey ← ofField owner field (readKey key k)
        let mapValue ← readEntryValue nested registry owner field value v
        .ok (OrderedMap.insert mapKey mapValue entries)) []
      .ok (.map entries)
    | json => ofField owner field (unexpected "object" json)

/-- The record with a member of an object applied to it. -/
def readMember (nested : Nested) (registry : Registry) (unknown : UnknownKeys)
    (type : MessageType) (record : Record) (key : String) (json : Json) :
    Except CodecError Record :=
  match (type.indexOf? key).bind fun index =>
      (type.fields[index]?).map fun field => (index, field) with
  | none =>
    match unknown with
    | .ignore => .ok record
    | .refuse => .error (.json type.name (.unknownField key))
  | some (index, field) =>
    match json with
    | .null => .ok record
    | json => do
      let v ← readField nested registry type.name field json
      .ok (record.set index (some v))

/-- The record of a type that a value gives; `nested` reads the messages inside. -/
def readObject (nested : Nested) (registry : Registry) (unknown : UnknownKeys)
    (type : MessageType) : Json → Except CodecError Record
  | .object members =>
    members.foldlM
      (fun record (key, json) => readMember nested registry unknown type record key json)
      type.defaultRecord
  | json => .error (.json type.name (.notObject json.kindName))

/-- The record of a type that a value gives, where messages may be nested on `levels` levels, this
one included. -/
def readLevels (registry : Registry) (unknown : UnknownKeys) : Nat → Nested
  | 0, _, _ => .error (.recursionLimit registry.options.recursionLimit)
  | levels + 1, type, json =>
    readObject (readLevels registry unknown levels) registry unknown type json

/-- The record of a type that a value gives. A message may be nested as deeply as the recursion
limit says, below the outermost one. -/
def read (registry : Registry) (unknown : UnknownKeys) : Nested :=
  readLevels registry unknown (registry.options.recursionLimit.toNat + 1)

/-- The record with the defaults of a type and the values of an object on top. Keys that name no
field are ignored, and no values, or `null`, leave all defaults. -/
def create (registry : Registry) (type : MessageType) :
    Option Json → Except CodecError Record
  | none => .ok type.defaultRecord
  | some .null => .ok type.defaultRecord
  | some json => read registry .ignore type json

/-- The record that a value gives; the options say what becomes of keys that name no field. -/
def decode (registry : Registry) (type : MessageType) (json : Json) :
    Except CodecError Record :=
  let unknown := if registry.options.ignoreUnknownJsonFields then .ignore else .refuse
  read registry unknown type json

/-- The record that a JSON text gives. -/
def decodeText (registry : Registry) (type : MessageType) (text : String) :
    Except CodecError Record :=
  match Json.parse? text with
  | some json => decode registry type json
  | none => .error (.json type.name .notJson)

end DynProto.Plain
