import DynProto.Registry.Basic
import DynProto.Wire.Content

/-!
# Writing messages in binary

The fields of a record are written in the order of their numbers. A single scalar or enum value
that is its default is left out, and so is a message that is not set. Repeated values are packed
into one block where their kind allows it and written one by one otherwise. An entry of a map is a
message of its own with the key as field 1 and the value as field 2, and always has both.

Every slot is written by itself (`slotPieces`); `assemble` puts the pieces in order.
-/

namespace DynProto.Binary

open Wire

/-! ## Pieces of a message -/

/-- A field with its content. -/
def fieldBytes (number : Nat) (wireType : WireType) (content : Bytes) : Bytes :=
  Key.bytes ⟨number, wireType⟩ ++ content

/-- A field with a block of octets. -/
def blockBytes (number : Nat) (block : Bytes) : Bytes :=
  fieldBytes number .delimited (delimited block)

/-- The error for a value that is not of the kind a field calls for. -/
def mismatch {α : Type} (owner : String) (field : Field) (expected : String) (found : Value) :
    Except CodecError α :=
  .error (.encode owner (.mismatch field.name expected found.kindName))

/-- The content of a scalar value of a field. -/
def scalarContent (owner : String) (field : Field) (kind : Scalar) (v : Value) :
    Except CodecError Bytes :=
  match kind.content? v with
  | some content => .ok content
  | none => mismatch owner field kind.keyword v

/-- The number of an enum value; a plain 32-bit integer serves as well. -/
def enumNumber (owner : String) (field : Field) : Value → Except CodecError Int32
  | .enum n => .ok n
  | .i32 n => .ok n
  | v => mismatch owner field "enum" v

/-- The pieces of a message in the order of the field numbers, if each of them could be written; of
several that could not, the first in that order tells why. -/
def assemble (type : MessageType) (slots : Nat) (pieces : List (Except CodecError Bytes)) :
    Except CodecError Bytes :=
  if type.fields.length < slots then
    .error (.encode type.name (.slotCount slots type.fields.length))
  else do
    let ordered ← type.wireOrder.mapM fun index => pieces.getD index (.ok [])
    .ok ordered.flatten

/-- A single scalar value: nothing if it is the default. -/
def singleScalar (owner : String) (field : Field) (kind : Scalar) (v : Value) :
    Except CodecError Bytes := do
  let content ← scalarContent owner field kind v
  .ok (if v.isDefault then [] else fieldBytes field.number kind.wireType content)

/-- The values of a repeated scalar field. -/
def repeatedScalar (owner : String) (field : Field) (kind : Scalar) (vs : List Value) :
    Except CodecError Bytes := do
  let contents ← vs.mapM (scalarContent owner field kind)
  if vs.isEmpty then .ok []
  else if kind.isPackable then .ok (blockBytes field.number contents.flatten)
  else .ok (contents.flatMap (fieldBytes field.number kind.wireType))

/-- A single enum value: nothing if it is zero. -/
def singleEnum (owner : String) (field : Field) (v : Value) : Except CodecError Bytes := do
  let n ← enumNumber owner field v
  .ok (if n = 0 then [] else fieldBytes field.number .varint (Scalar.int32Content n))

/-- The values of a repeated enum field. -/
def repeatedEnum (owner : String) (field : Field) (vs : List Value) : Except CodecError Bytes := do
  let numbers ← vs.mapM (enumNumber owner field)
  .ok (if numbers.isEmpty then []
    else blockBytes field.number (numbers.flatMap Scalar.int32Content))

/-! ## Messages -/

mutual

/-- What each slot of a message is written as; an empty slot is written as nothing. -/
def slotPieces (registry : Registry) (owner : String) :
    List Field → List (Option Value) → List (Except CodecError Bytes)
  | field :: fields, some v :: slots =>
    fieldPiece registry owner field v :: slotPieces registry owner fields slots
  | _ :: fields, none :: slots => .ok [] :: slotPieces registry owner fields slots
  | _, _ => []

/-- What the value of a field is written as. -/
def fieldPiece (registry : Registry) (owner : String) (field : Field) (v : Value) :
    Except CodecError Bytes :=
  match field.kind, v with
  | .scalar kind false, v => singleScalar owner field kind v
  | .scalar kind true, .list vs => repeatedScalar owner field kind vs
  | .enum _ false, v => singleEnum owner field v
  | .enum _ true, .list vs => repeatedEnum owner field vs
  | .message name false, v => do
    let type ← registry.codecMessageType name
    match v with
    | .message slots =>
      let body ← assemble type slots.length (slotPieces registry type.name type.fields slots)
      .ok (blockBytes field.number body)
    | v => mismatch owner field "message" v
  | .message name true, .list vs =>
    if vs.isEmpty then .ok []
    else do
      let type ← registry.codecMessageType name
      elementPieces registry owner field type vs
  | .map key value, .map entries => entryPieces registry owner field key value entries
  | .map _ _, v => mismatch owner field "map" v
  | _, v => mismatch owner field "list" v

/-- What the messages of a repeated field are written as. -/
def elementPieces (registry : Registry) (owner : String) (field : Field) (type : MessageType) :
    List Value → Except CodecError Bytes
  | [] => .ok []
  | .message slots :: rest => do
    let body ← assemble type slots.length (slotPieces registry type.name type.fields slots)
    let more ← elementPieces registry owner field type rest
    .ok (blockBytes field.number body ++ more)
  | v :: _ => mismatch owner field "message" v

/-- What the entries of a map field are written as. -/
def entryPieces (registry : Registry) (owner : String) (field : Field) (key : Scalar)
    (value : MapValue) : List (MapKey × Value) → Except CodecError Bytes
  | [] => .ok []
  | (k, v) :: rest => do
    let keyContent ← scalarContent owner field key k.toValue
    let valueBytes ← entryValuePiece registry owner field value v
    let more ← entryPieces registry owner field key value rest
    .ok (blockBytes field.number (fieldBytes 1 key.wireType keyContent ++ valueBytes) ++ more)

/-- What the value of a map entry is written as. -/
def entryValuePiece (registry : Registry) (owner : String) (field : Field) (value : MapValue)
    (v : Value) : Except CodecError Bytes :=
  match value, v with
  | .scalar kind, v => do
    let content ← scalarContent owner field kind v
    .ok (fieldBytes 2 kind.wireType content)
  | .enum _, v => do
    let n ← enumNumber owner field v
    .ok (fieldBytes 2 .varint (Scalar.int32Content n))
  | .message name, v => do
    let type ← registry.codecMessageType name
    match v with
    | .message slots =>
      let body ← assemble type slots.length (slotPieces registry type.name type.fields slots)
      .ok (blockBytes 2 body)
    | v => mismatch owner field "message" v

end

/-- The octets of a record of a type. -/
def encode (registry : Registry) (type : MessageType) (record : Record) :
    Except CodecError Bytes :=
  assemble type record.length (slotPieces registry type.name type.fields record)

end DynProto.Binary
