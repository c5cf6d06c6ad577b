import DynProto.Binary.Reader
import DynProto.Binary.Writer
import DynProto.Plain.Reader
import DynProto.Plain.Writer

/-!
# Messages

A `Message` is a record together with its type and the registry in which the types it refers to are
found. A `Binding` is the type and the registry without a record: what is needed to create, read
and write messages of the type.
-/

namespace DynProto

/-! ## Normal records -/

/-- The record with its missing slots added and every empty slot set to the default of its field.
A slot of a single message may stay empty. More slots than fields are refused. -/
def MessageType.normalize (type : MessageType) (record : Record) : Except CodecError Record :=
  if type.fields.length < record.length then
    .error (.encode type.name (.slotCount record.length type.fields.length))
  else
    .ok (type.fields.mapIdx fun index field => (record.value? index).or field.kind.default)

/-! ## Messages -/

/-- A record of a type whose references are found in a registry. -/
structure Message where
  /-- Where the types are found that fields refer to. -/
  registry : Registry
  /-- The type of the message. -/
  type : MessageType
  /-- The data of the message. -/
  record : Record
deriving Repr

namespace Message

/-- The octets of a message. -/
def encode (message : Message) : Except CodecError Bytes :=
  Binary.encode message.registry message.type message.record

/-- The value of the field that a key names, if it is set. -/
def get? (message : Message) (key : String) : Option Value :=
  (message.type.indexOf? key).bind message.record.value?

/-- All fields with their values. -/
def fields (message : Message) : List (Field × Option Value) :=
  message.type.fields.mapIdx fun index field => (field, message.record.value? index)

/-- The plain object of a message. -/
def toJson (message : Message) : Except CodecError Json :=
  Plain.write message.registry message.type message.record

/-- Whether two messages are of types with one name and hold the same values, floating-point
numbers compared as numbers. -/
def same (a b : Message) : Bool :=
  a.type.name == b.type.name && a.record.same b.record

end Message

/-! ## Print flags -/

/-- How a plain object is printed, as a set of flags. -/
structure PrintFlags where
  /-- One bit for each flag. -/
  bits : UInt32
deriving DecidableEq, Repr

namespace PrintFlags

/-- No flag: everything on one line. -/
def none : PrintFlags := ⟨0⟩

/-- Members on lines of their own. -/
def pretty : PrintFlags := ⟨1⟩

/-- The flags of either set. -/
def union (a b : PrintFlags) : PrintFlags :=
  ⟨a.bits ||| b.bits⟩

/-- Whether every flag of the second set is in the first. -/
def contains (a b : PrintFlags) : Bool :=
  a.bits &&& b.bits == b.bits

end PrintFlags

/-- The plain object of a message as a text. -/
def Message.print (message : Message) (flags : PrintFlags) : Except CodecError String :=
  message.toJson.map fun json => if flags.contains .pretty then json.pretty else json.compact

/-! ## Bindings -/

/-- A type whose references are found in a registry. -/
structure Binding where
  /-- Where the types are found that fields refer to. -/
  registry : Registry
  /-- The type of the messages. -/
  type : MessageType
deriving Repr

/-- What can be written as a message of a type. -/
inductive Source where
  /-- A message, which must be of the type. -/
  | message (message : Message)
  /-- A record, which may lack slots. -/
  | record (record : Record)
  /-- Values for a new message. -/
  | values (json : Json)

namespace Binding

/-- The message with a record. -/
def message (binding : Binding) (record : Record) : Message :=
  ⟨binding.registry, binding.type, record⟩

/-- A new message with the values of an object on top of the defaults. -/
def create (binding : Binding) (values : Option Json) : Except CodecError Message :=
  (Plain.create binding.registry binding.type values).map binding.message

/-- The message that octets stand for. -/
def decode (binding : Binding) (bytes : Bytes) : Except CodecError Message :=
  (Binary.decode binding.registry binding.type bytes).map binding.message

/-- The message that a JSON text gives. -/
def decodeText (binding : Binding) (text : String) : Except CodecError Message :=
  (Plain.decodeText binding.registry binding.type text).map binding.message

/-- The record that is written for a source. -/
def recordOf (binding : Binding) : Source → Except CodecError Record
  | .message message =>
    if message.type.name = binding.type.name then binding.type.normalize message.record
    else .error (.encode binding.type.name (.foreign message.type.name))
  | .record record => binding.type.normalize record
  | .values json => Plain.create binding.registry binding.type (some json)

/-- The octets of a message of the type. -/
def encode (binding : Binding) (source : Source) : Except CodecError Bytes := do
  let record ← binding.recordOf source
  Binary.encode binding.registry binding.type record

end Binding

end DynProto
