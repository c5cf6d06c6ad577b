import DynProto.Error
import DynProto.Number.Numeral
import DynProto.Schema.Enum
import DynProto.Schema.Field
import DynProto.Text.Base64
import DynProto.Text.Blank

/-!
# JSON values of scalars, enums and map keys

The two directions between JSON values and the values of single fields.

Reading is generous: numbers may be given as strings, with blanks around them, and an integer may be
given as a floating-point number if it has no fraction; enum values go by name or number; octets are
Base64 in either alphabet, or an array of numbers. Every integer is taken exactly or not at all.

Writing is narrow: integers of 64 bits are strings, as are the numbers that JSON does not have, enum
values are numbers, and octets are Base64.
-/

namespace DynProto.Plain

open DynProto.Number (Format)

/-! ## Reading -/

/-- The error for a value of a kind other than the one that is called for. -/
def unexpected {α : Type} (expected : String) (found : Json) : Except PlainReason α :=
  .error (.expected expected found.kindName)

/-- The 64-bit floating-point number that a value stands for. -/
def readDouble : Json → Except PlainReason UInt64
  | .number n => .ok n.toDouble
  | .string s =>
    if s = "NaN" then .ok Format.double.quietNaN.toUInt64
    else if s = "Infinity" then .ok Format.double.infinity.toUInt64
    else if s = "-Infinity" then .ok (Format.double.signed true Format.double.infinity).toUInt64
    else
      match Number.double? (Text.trim s.toList) with
      | some word => .ok word
      | none => .error (.notFloat s)
  | json => unexpected "number" json

/-- The largest finite 32-bit floating-point number, as a 64-bit magnitude. -/
def maxSingle : Nat :=
  (Number.widen (Format.single.infinity - 1).toUInt32).toNat

/-- The 32-bit floating-point number nearest to a 64-bit one; a finite one must not exceed the
largest there is. -/
def singleOfDouble (word : UInt64) : Except PlainReason UInt32 :=
  if Format.double.isFinite word.toNat && maxSingle < Format.double.magnitude word.toNat then
    .error (.floatRange word)
  else .ok (Number.narrow word)

/-- Whether an integer fits 64 bits, with or without a sign. -/
def fitsWide (signed : Bool) (n : Int) : Bool :=
  if signed then Int64.minValue.toInt ≤ n && n ≤ Int64.maxValue.toInt
  else 0 ≤ n && n < UInt64.size

/-- Whether an integer fits 32 bits with a sign. -/
def fitsInt32 (n : Int) : Bool :=
  Int32.minValue.toInt ≤ n && n ≤ Int32.maxValue.toInt

/-- The least integer of 64 bits, with or without a sign. -/
def leastWide (signed : Bool) : Int :=
  if signed then Int64.minValue.toInt else 0

/-- The greatest integer of 64 bits, with or without a sign. -/
def greatestWide (signed : Bool) : Int :=
  if signed then Int64.maxValue.toInt else UInt64.size - 1

/-- Whether a floating-point number has no fraction and lies between the bounds of the integers of
64 bits, as these are rounded: the upper one becomes the power of two above it and is left out. -/
def isWideIntegral (signed : Bool) (word : UInt64) : Bool :=
  Format.double.isIntegral word.toNat &&
    Format.double.atMost (Format.double.ofInt (leastWide signed)) word.toNat &&
    !Format.double.atMost (Format.double.ofInt (greatestWide signed)) word.toNat

/-- The integer of 64 bits that a floating-point number is cut down to. -/
def cutWide (signed : Bool) (word : UInt64) : Int :=
  max (leastWide signed) (min (greatestWide signed) (Format.double.truncate word.toNat))

/-- The integer of 64 bits that a number is taken for: the one that it is held as, otherwise the one
that the nearest floating-point number stands for. -/
def wideOfNumber? (signed : Bool) (n : Json.Number) : Option Int :=
  (n.held?.filter (fitsWide signed)).or <|
    ((some n.toDouble).filter (isWideIntegral signed)).map (cutWide signed)

/-- The integer of 64 bits that a value stands for. -/
def readInteger (signed : Bool) : Json → Except PlainReason Int
  | .number n =>
    match wideOfNumber? signed n with
    | some i => .ok i
    | none => .error (.notInteger n signed)
  | .string s =>
    let cs := Text.trim s.toList
    let spelled := if signed then Text.integer? cs else (Text.unsigned? cs).map Int.ofNat
    match spelled.filter (fitsWide signed) with
    | some i => .ok i
    | none => .error (.notIntegerText s signed)
  | json => unexpected "integer" json

/-- The signed integer of 32 bits that a value stands for. -/
def readInt32 (kind : Scalar) (json : Json) : Except PlainReason Int32 := do
  let n ← readInteger true json
  if fitsInt32 n then .ok (Int32.ofInt n) else .error (.integerRange n kind)

/-- The unsigned integer of 32 bits that a value stands for. -/
def readUInt32 (kind : Scalar) (json : Json) : Except PlainReason UInt32 := do
  let n ← readInteger false json
  if n < UInt32.size then .ok n.toNat.toUInt32 else .error (.integerRange n kind)

/-- The octet that an item of an array stands for. -/
def readOctet : Json → Except PlainReason UInt8
  | .number (.natural n) =>
    if n.toNat < 256 then .ok n.toUInt8 else .error (.notOctet (.number (.natural n)))
  | json => .error (.notOctet json)

/-- The octets that a value stands for. -/
def readBytes : Json → Except PlainReason Bytes
  | .string s =>
    match Base64.decode Base64.standard (Text.utf8 s) with
    | .ok content => .ok content
    | .error _ => (Base64.decode Base64.urlSafe (Text.utf8 s)).mapError .base64
  | .array items => items.mapM readOctet
  | json => unexpected "base64 string" json

/-- The value of a scalar kind that a JSON value stands for. -/
def readScalar (kind : Scalar) (json : Json) : Except PlainReason Value :=
  match kind with
  | .double => (readDouble json).map .f64
  | .float => do
    let word ← readDouble json
    let single ← singleOfDouble word
    .ok (.f32 single)
  | .int32 | .sint32 | .sfixed32 => (readInt32 kind json).map .i32
  | .uint32 | .fixed32 => (readUInt32 kind json).map .u32
  | .int64 | .sint64 | .sfixed64 => (readInteger true json).map fun n => .i64 (Int64.ofInt n)
  | .uint64 | .fixed64 => (readInteger false json).map fun n => .u64 n.toNat.toUInt64
  | .bool =>
    match json with
    | .bool b => .ok (.bool b)
    | json => unexpected "bool" json
  | .string =>
    match json with
    | .string s => .ok (.string s)
    | json => unexpected "string" json
  | .bytes => (readBytes json).map .bytes

/-- The number of the enum value that a JSON value stands for. -/
def readEnum (type : EnumType) (json : Json) : Except PlainReason Int32 :=
  match json with
  | .number _ => do
    let n ← readInteger true json
    if fitsInt32 n then .ok (Int32.ofInt n) else .error (.enumRange n type.name)
  | .string name =>
    match type.numberOf? name with
    | some n => .ok n
    | none => .error (.enumName name type.name)
  | json => unexpected "enum name or number" json

/-- The map key of a kind that a key of an object spells. -/
def readKey (kind : Scalar) (key : String) : Except PlainReason MapKey :=
  match kind with
  | .bool =>
    if key = "true" then .ok (.bool true)
    else if key = "false" then .ok (.bool false)
    else .error (.boolKey key)
  | .string => .ok (.string key)
  | kind =>
    if kind.isMapKey then do
      let v ← readScalar kind (.string key)
      match MapKey.ofValue? v with
      | some k => .ok k
      | none => .error (.mapKey kind)
    else .error (.mapKey kind)

/-- The items of an array. -/
def readItems : Json → Except PlainReason (List Json)
  | .array items => .ok items
  | json => unexpected "array" json

/-! ## Writing -/

/-- The JSON value of a 64-bit floating-point number. -/
def writeDouble (word : UInt64) : Json :=
  if Format.double.isFinite word.toNat then .number (.double word)
  else if Format.double.isNaN word.toNat then .string "NaN"
  else if Format.double.isNegative word.toNat then .string "-Infinity"
  else .string "Infinity"

mutual

/-- The JSON value of a value that is neither a message nor a map and holds none. -/
def writeValue : Value → Except PlainReason Json
  | .bool b => .ok (.bool b)
  | .i32 n => .ok (.number (.ofInt32 n))
  | .enum n => .ok (.number (.ofInt32 n))
  | .u32 n => .ok (.number (.natural n.toUInt64))
  | .i64 n => .ok (.string (Text.integer n.toInt))
  | .u64 n => .ok (.string (Text.natural n.toNat))
  | .f32 word => .ok (writeDouble (Number.widen word))
  | .f64 word => .ok (writeDouble word)
  | .string s => .ok (.string s)
  | .bytes content => .ok (.string (Base64.text content))
  | .list elements => do
    let items ← writeValues elements
    .ok (.array items)
  | .message slots => .error (.outside (Value.message slots).kindName)
  | .map entries => .error (.outside (Value.map entries).kindName)

/-- The JSON values of the elements of a list. -/
def writeValues : List Value → Except PlainReason (List Json)
  | [] => .ok []
  | v :: rest => do
    let json ← writeValue v
    let more ← writeValues rest
    .ok (json :: more)

end

end DynProto.Plain
