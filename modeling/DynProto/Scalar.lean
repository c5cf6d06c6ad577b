/-!
# Scalar kinds

The fifteen kinds of field that hold one plain value. A descriptor names a kind by a number; the
numbers of groups, messages and enums name no scalar.
-/

namespace DynProto

/-- A scalar field kind. -/
inductive Scalar where
  /-- 64-bit floating point, eight octets. -/
  | double
  /-- 32-bit floating point, four octets. -/
  | float
  /-- Signed 64-bit integer as a varint. -/
  | int64
  /-- Unsigned 64-bit integer as a varint. -/
  | uint64
  /-- Signed 32-bit integer as a varint; a negative one takes ten octets. -/
  | int32
  /-- Unsigned 64-bit integer, eight octets. -/
  | fixed64
  /-- Unsigned 32-bit integer, four octets. -/
  | fixed32
  /-- Truth value as a varint. -/
  | bool
  /-- Text in UTF-8. -/
  | string
  /-- Octets without meaning. -/
  | bytes
  /-- Unsigned 32-bit integer as a varint. -/
  | uint32
  /-- Signed 32-bit integer, four octets. -/
  | sfixed32
  /-- Signed 64-bit integer, eight octets. -/
  | sfixed64
  /-- Signed 32-bit integer as a zigzag varint. -/
  | sint32
  /-- Signed 64-bit integer as a zigzag varint. -/
  | sint64
deriving DecidableEq, Repr

namespace Scalar

/-- Every kind, in the order of the descriptor numbers. -/
def all : List Scalar :=
  [double, float, int64, uint64, int32, fixed64, fixed32, bool, string, bytes, uint32, sfixed32,
    sfixed64, sint32, sint64]

/-- The number that names a kind in a descriptor. -/
def code : Scalar → Int
  | double => 1
  | float => 2
  | int64 => 3
  | uint64 => 4
  | int32 => 5
  | fixed64 => 6
  | fixed32 => 7
  | bool => 8
  | string => 9
  | bytes => 12
  | uint32 => 13
  | sfixed32 => 15
  | sfixed64 => 16
  | sint32 => 17
  | sint64 => 18

/-- The word for a kind in a schema. -/
def keyword : Scalar → String
  | double => "double"
  | float => "float"
  | int64 => "int64"
  | uint64 => "uint64"
  | int32 => "int32"
  | fixed64 => "fixed64"
  | fixed32 => "fixed32"
  | bool => "bool"
  | string => "string"
  | bytes => "bytes"
  | uint32 => "uint32"
  | sfixed32 => "sfixed32"
  | sfixed64 => "sfixed64"
  | sint32 => "sint32"
  | sint64 => "sint64"

/-- The kind with a descriptor number. -/
def ofCode? (code : Int) : Option Scalar :=
  all.find? fun kind => kind.code == code

/-- The kind with a keyword. -/
def ofKeyword? (keyword : String) : Option Scalar :=
  all.find? fun kind => kind.keyword == keyword

/-- Whether several values of a kind may share one field on the wire. -/
def isPackable : Scalar → Bool
  | string | bytes => false
  | _ => true

/-- Whether a kind may be the key of a map: integers, truth values and text may. -/
def isMapKey : Scalar → Bool
  | double | float | bytes => false
  | _ => true

/-- Whether a kind holds a 64-bit integer. -/
def isWide : Scalar → Bool
  | int64 | uint64 | fixed64 | sfixed64 | sint64 => true
  | _ => false

theorem mem_all (kind : Scalar) : kind ∈ all := by
  cases kind <;> decide

/-- A descriptor number names at most the kind that has it. -/
theorem ofCode?_code (kind : Scalar) : ofCode? kind.code = some kind := by
  cases kind <;> rfl

end Scalar

end DynProto
