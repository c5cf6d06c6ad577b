import DynProto.Text.Decimal

/-!
# Wire types and faults of the wire format

Every field on the wire opens with a key that gives its number and its wire type, the shape of what
follows. A `Wire.Fault` is a reason why octets are no such sequence of fields.
-/

namespace DynProto.Wire

/-- The shape of a field's content. -/
inductive WireType where
  /-- A varint. -/
  | varint
  /-- Eight octets. -/
  | fixed64
  /-- A length and that many octets. -/
  | delimited
  /-- The start of a group of fields. -/
  | startGroup
  /-- The end of a group of fields. -/
  | endGroup
  /-- Four octets. -/
  | fixed32
deriving DecidableEq, Repr

namespace WireType

/-- The number of a wire type in a key. -/
def code : WireType → Nat
  | varint => 0
  | fixed64 => 1
  | delimited => 2
  | startGroup => 3
  | endGroup => 4
  | fixed32 => 5

/-- The wire type with a number. -/
def ofCode? : Nat → Option WireType
  | 0 => some varint
  | 1 => some fixed64
  | 2 => some delimited
  | 3 => some startGroup
  | 4 => some endGroup
  | 5 => some fixed32
  | _ => none

/-- The name of a wire type, for messages. -/
def name : WireType → String
  | varint => "Varint"
  | fixed64 => "SixtyFourBit"
  | delimited => "LengthDelimited"
  | startGroup => "StartGroup"
  | endGroup => "EndGroup"
  | fixed32 => "ThirtyTwoBit"

theorem ofCode?_code (t : WireType) : ofCode? t.code = some t := by
  cases t <;> rfl

end WireType

/-- Why octets cannot be read. -/
inductive Fault where
  /-- A varint that is cut or exceeds 64 bits. -/
  | varint
  /-- A key above 32 bits. -/
  | key (value : Nat)
  /-- A key whose wire type is undefined. -/
  | wireType (code : Nat)
  /-- A key with the field number zero. -/
  | zeroNumber
  /-- A field whose wire type is not the one its kind calls for. -/
  | mismatch (found expected : WireType)
  /-- Content that reaches beyond the end of the octets. -/
  | underflow
  /-- The last element of a block reaches beyond the block. -/
  | blockExceeded
  /-- A string that is no UTF-8. -/
  | notUtf8
  /-- The end of a group that is not open. -/
  | endGroup
  /-- Groups or messages nested too deeply. -/
  | tooDeep
  /-- A nested message or map entry of this length that reaches beyond the end of the octets. -/
  | bodyOverrun (length : Nat)
deriving DecidableEq, Repr

namespace Fault

/-- What is wrong, in short. -/
def description : Fault → String
  | varint => "invalid varint"
  | key value => "invalid key value: " ++ Text.natural value
  | wireType code => "invalid wire type value: " ++ Text.natural code
  | zeroNumber => "invalid tag value: 0"
  | mismatch found expected =>
    "invalid wire type: " ++ found.name ++ " (expected " ++ expected.name ++ ")"
  | underflow => "buffer underflow"
  | blockExceeded => "delimited length exceeded"
  | notUtf8 => "invalid string value: data is not UTF-8 encoded"
  | endGroup => "unexpected end group tag"
  | tooDeep => "recursion limit reached"
  | bodyOverrun length =>
    "length-delimited field of " ++ Text.natural length ++ " bytes overruns buffer"

/-- The words that open the message of a fault of the wire primitives. -/
def opening : String := "failed to decode Protobuf message: "

/-- The wording of a fault. -/
def message : Fault → String
  | bodyOverrun length => description (bodyOverrun length)
  | fault => opening ++ fault.description

end Fault

end DynProto.Wire
