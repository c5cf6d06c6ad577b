import DynProto.Plain.Conversion
import DynProto.Registry.Basic

/-!
# Writing messages as plain objects

A record becomes a JSON object with a member for every slot that is set, under the plain key of its
field. Values are written by what they are, not by what the field declares; only messages and maps
need a field that is declared to hold them.
-/

namespace DynProto.Plain

/-- The object of a message of a type, if each of its members could be written. -/
def objectOf (type : MessageType) (slots : Nat)
    (members : Except CodecError (List (String × Json))) : Except CodecError Json :=
  if type.fields.length < slots then
    .error (.json type.name (.slotCount slots type.fields.length))
  else do
    let members ← members
    .ok (.object (OrderedMap.ofList members))

/-- A value of a field that is written by what it is. -/
def writePlain (owner : String) (field : Field) (v : Value) : Except CodecError Json :=
  (writeValue v).mapError fun reason => .json owner (.field field.name reason)

mutual

/-- The members for the slots of a message: its fields, their plain keys and its slots are given
side by side. -/
def writeSlots (registry : Registry) (owner : String) :
    List Field → List String → List (Option Value) → Except CodecError (List (String × Json))
  | field :: fields, key :: keys, some v :: slots => do
    let json ← writeField registry owner field v
    let more ← writeSlots registry owner fields keys slots
    .ok ((key, json) :: more)
  | _ :: fields, _ :: keys, none :: slots => writeSlots registry owner fields keys slots
  | _, _, _ => .ok []

/-- The JSON value of a field. -/
def writeField (registry : Registry) (owner : String) (field : Field) (v : Value) :
    Except CodecError Json :=
  match field.kind, v with
  | .message name _, .message slots => do
    let type ← registry.codecMessageType name
    objectOf type slots.length (writeSlots registry type.name type.fields type.plainKeys slots)
  | .message name _, .list elements => do
    let type ← registry.codecMessageType name
    let items ← writeMessages registry owner field type elements
    .ok (.array items)
  | .map _ (.message name), .map entries => do
    let type ← registry.codecMessageType name
    let members ← writeEntries registry owner field (some type) entries
    .ok (.object (OrderedMap.ofList members))
  | .map _ _, .map entries => do
    let members ← writeEntries registry owner field none entries
    .ok (.object (OrderedMap.ofList members))
  | _, v => writePlain owner field v

/-- The JSON values of the messages of a repeated field. -/
def writeMessages (registry : Registry) (owner : String) (field : Field) (type : MessageType) :
    List Value → Except CodecError (List Json)
  | [] => .ok []
  | .message slots :: rest => do
    let json ←
      objectOf type slots.length (writeSlots registry type.name type.fields type.plainKeys slots)
    let more ← writeMessages registry owner field type rest
    .ok (json :: more)
  | v :: _ => .error (.json owner (.field field.name (.expected "message" v.kindName)))

/-- The members for the entries of a map field, whose values may be messages of a type. -/
def writeEntries (registry : Registry) (owner : String) (field : Field)
    (type : Option MessageType) : List (MapKey × Value) → Except CodecError (List (String × Json))
  | [] => .ok []
  | (k, v) :: rest => do
    let json ← writeEntry registry owner field type v
    let more ← writeEntries registry owner field type rest
    .ok ((k.text, json) :: more)

/-- The JSON value of an entry of a map field. -/
def writeEntry (registry : Registry) (owner : String) (field : Field)
    (type : Option MessageType) (v : Value) : Except CodecError Json :=
  match type, v with
  | some type, .message slots =>
    objectOf type slots.length (writeSlots registry type.name type.fields type.plainKeys slots)
  | _, v => writePlain owner field v

end

/-- The plain object of a record of a type. -/
def write (registry : Registry) (type : MessageType) (record : Record) :
    Except CodecError Json :=
  objectOf type record.length (writeSlots registry type.name type.fields type.plainKeys record)

end DynProto.Plain
