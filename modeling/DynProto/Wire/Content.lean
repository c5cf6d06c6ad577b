import DynProto.Value
import DynProto.Wire.Field

/-!
# Scalar values on the wire

The octets of a value of each scalar kind, and the reader that undoes them. Integers narrower than
a varint are cut to their width when they are read, so that every varint is a value of every
integer kind; a negative 32-bit integer is written as if it had 64 bits.
-/

namespace DynProto.Scalar

open Wire

/-- The wire type of one value of a kind. -/
def wireType : Scalar → WireType
  | double | fixed64 | sfixed64 => .fixed64
  | float | fixed32 | sfixed32 => .fixed32
  | string | bytes => .delimited
  | int64 | uint64 | int32 | bool | uint32 | sint32 | sint64 => .varint

/-- The octets of an integer as a varint of 64 bits. -/
def int32Content (n : Int32) : Bytes :=
  varint n.toInt64.toUInt64.toNat

/-- The integer in the low 32 bits of a varint. -/
def int32Reader : Reader Fault Int32 :=
  Reader.varint.map fun n => n.toUInt32.toInt32

/-- The octets of a value, if it is of the sort that stores the kind. -/
def content? : Scalar → Value → Option Bytes
  | double, .f64 word => some (littleEndian 8 word.toNat)
  | float, .f32 word => some (littleEndian 4 word.toNat)
  | int64, .i64 n => some (varint n.toUInt64.toNat)
  | uint64, .u64 n => some (varint n.toNat)
  | int32, .i32 n => some (int32Content n)
  | fixed64, .u64 n => some (littleEndian 8 n.toNat)
  | fixed32, .u32 n => some (littleEndian 4 n.toNat)
  | bool, .bool b => some (varint (if b then 1 else 0))
  | string, .string s => some (delimited (Text.utf8 s))
  | bytes, .bytes content => some (delimited content)
  | uint32, .u32 n => some (varint n.toNat)
  | sfixed32, .i32 n => some (littleEndian 4 n.toUInt32.toNat)
  | sfixed64, .i64 n => some (littleEndian 8 n.toUInt64.toNat)
  | sint32, .i32 n => some (varint (zigzag n.toInt))
  | sint64, .i64 n => some (varint (zigzag n.toInt))
  | _, _ => none

/-- The reader of one value of a kind. -/
def reader : Scalar → Reader Fault Value
  | double => (Reader.fixed 7).map fun n => .f64 n.toUInt64
  | float => (Reader.fixed 3).map fun n => .f32 n.toUInt32
  | int64 => Reader.varint.map fun n => .i64 n.toUInt64.toInt64
  | uint64 => Reader.varint.map fun n => .u64 n.toUInt64
  | int32 => int32Reader.map .i32
  | fixed64 => (Reader.fixed 7).map fun n => .u64 n.toUInt64
  | fixed32 => (Reader.fixed 3).map fun n => .u32 n.toUInt32
  | bool => Reader.varint.map fun n => .bool (n != 0)
  | string => Reader.text.map .string
  | bytes => Reader.delimited.map .bytes
  | uint32 => Reader.varint.map fun n => .u32 n.toUInt32
  | sfixed32 => (Reader.fixed 3).map fun n => .i32 n.toUInt32.toInt32
  | sfixed64 => (Reader.fixed 7).map fun n => .i64 n.toUInt64.toInt64
  | sint32 => Reader.varint.map fun n => .i32 (Int32.ofInt (unzigzag (n % UInt32.size)))
  | sint64 => Reader.varint.map fun n => .i64 (Int64.ofInt (unzigzag n))

/-- A value has octets exactly if it is of the sort that stores the kind. -/
theorem isSome_content? (kind : Scalar) (v : Value) : (kind.content? v).isSome = v.fits kind := by
  cases kind <;> cases v <;> rfl

end DynProto.Scalar
