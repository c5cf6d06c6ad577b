import DynProto.Number.Format
import DynProto.OrderedMap
import DynProto.Scalar
import DynProto.Text.Decimal
import DynProto.Text.Utf8

/-!
# Values and records

The data of a message whose type is known only at run time. A `Record` has one slot per field of
the type, in the order in which the fields are declared; the type supplies names, kinds and
defaults, the record only the values. A slot may be empty.

Floating-point values are kept as words, so that a value survives unchanged whatever it is, also a
not-a-number with a payload or a negative zero.
-/

namespace DynProto

/-- A key of a map field. Keys are integers, truth values or text. -/
inductive MapKey where
  /-- A truth value. -/
  | bool (b : Bool)
  /-- A signed 32-bit integer. -/
  | i32 (n : Int32)
  /-- A signed 64-bit integer. -/
  | i64 (n : Int64)
  /-- An unsigned 32-bit integer. -/
  | u32 (n : UInt32)
  /-- An unsigned 64-bit integer. -/
  | u64 (n : UInt64)
  /-- A text. -/
  | string (s : String)
deriving DecidableEq, Repr

/-- The value of one field. -/
inductive Value where
  /-- A truth value. -/
  | bool (b : Bool)
  /-- A signed 32-bit integer. -/
  | i32 (n : Int32)
  /-- A signed 64-bit integer. -/
  | i64 (n : Int64)
  /-- An unsigned 32-bit integer. -/
  | u32 (n : UInt32)
  /-- An unsigned 64-bit integer. -/
  | u64 (n : UInt64)
  /-- A 32-bit floating-point number, by its word. -/
  | f32 (word : UInt32)
  /-- A 64-bit floating-point number, by its word. -/
  | f64 (word : UInt64)
  /-- A text. -/
  | string (s : String)
  /-- Octets. -/
  | bytes (content : Bytes)
  /-- The number of an enum value. -/
  | enum (n : Int32)
  /-- A nested message, by its slots. -/
  | message (slots : List (Option Value))
  /-- The elements of a repeated field. -/
  | list (elements : List Value)
  /-- The entries of a map field, ordered by key. -/
  | map (entries : List (MapKey × Value))
deriving Repr

/-- The data of one message: the values of its fields in declared order. -/
abbrev Record := List (Option Value)

/-! ## Map keys -/

namespace MapKey

/-- The place of a key's kind in the order of keys. -/
def rank : MapKey → Nat
  | bool _ => 0
  | i32 _ => 1
  | i64 _ => 2
  | u32 _ => 3
  | u64 _ => 4
  | string _ => 5

/-- Keys of one kind are ordered by value, keys of different kinds by the kind. -/
def order : MapKey → MapKey → Ordering
  | bool a, bool b => compare a b
  | i32 a, i32 b => compare a b
  | i64 a, i64 b => compare a b
  | u32 a, u32 b => compare a b
  | u64 a, u64 b => compare a b
  | string a, string b => compare a b
  | a, b => compare a.rank b.rank

instance : Ord MapKey := ⟨order⟩

/-- A scalar value as a key, if its kind may be one. -/
def ofValue? : Value → Option MapKey
  | .bool b => some (bool b)
  | .i32 n => some (i32 n)
  | .i64 n => some (i64 n)
  | .u32 n => some (u32 n)
  | .u64 n => some (u64 n)
  | .string s => some (string s)
  | _ => none

/-- A key as a scalar value. -/
def toValue : MapKey → Value
  | bool b => .bool b
  | i32 n => .i32 n
  | i64 n => .i64 n
  | u32 n => .u32 n
  | u64 n => .u64 n
  | string s => .string s

/-- The text of a key. -/
def text : MapKey → String
  | bool true => "true"
  | bool false => "false"
  | i32 n => Text.integer n.toInt
  | i64 n => Text.integer n.toInt
  | u32 n => Text.natural n.toNat
  | u64 n => Text.natural n.toNat
  | string s => s

@[simp] theorem ofValue?_toValue (key : MapKey) : ofValue? key.toValue = some key := by
  cases key <;> rfl

theorem toValue_of_ofValue? {v : Value} {key : MapKey} (h : ofValue? v = some key) :
    key.toValue = v := by
  cases v <;> simp only [ofValue?, Option.some.injEq, reduceCtorEq] at h <;> subst h <;> rfl

end MapKey

/-! ## Values -/

namespace Value

/-- The value that a field of a scalar kind has when nothing was set. -/
def scalarDefault : Scalar → Value
  | .double => f64 0
  | .float => f32 0
  | .int64 | .sint64 | .sfixed64 => i64 0
  | .uint64 | .fixed64 => u64 0
  | .int32 | .sint32 | .sfixed32 => i32 0
  | .uint32 | .fixed32 => u32 0
  | .bool => bool false
  | .string => string ""
  | .bytes => bytes []

/-- Whether a value is the zero of its own kind. A negative zero is not, and no message is. -/
def isDefault : Value → Bool
  | bool b => !b
  | i32 n => n == 0
  | enum n => n == 0
  | i64 n => n == 0
  | u32 n => n == 0
  | u64 n => n == 0
  | f32 word => word == 0
  | f64 word => word == 0
  | string s => s.isEmpty
  | bytes content => content.isEmpty
  | message _ => false
  | list elements => elements.isEmpty
  | map entries => entries.isEmpty

/-- Whether a value is of the sort that stores a scalar kind. -/
def fits (kind : Scalar) : Value → Bool
  | f64 _ => kind == .double
  | f32 _ => kind == .float
  | i64 _ => kind == .int64 || kind == .sint64 || kind == .sfixed64
  | u64 _ => kind == .uint64 || kind == .fixed64
  | i32 _ => kind == .int32 || kind == .sint32 || kind == .sfixed32
  | u32 _ => kind == .uint32 || kind == .fixed32
  | bool _ => kind == .bool
  | string _ => kind == .string
  | bytes _ => kind == .bytes
  | _ => false

/-- The name of a value's sort, for messages. -/
def kindName : Value → String
  | bool _ => "bool"
  | i32 _ => "i32"
  | i64 _ => "i64"
  | u32 _ => "u32"
  | u64 _ => "u64"
  | f32 _ => "f32"
  | f64 _ => "f64"
  | string _ => "string"
  | bytes _ => "bytes"
  | enum _ => "enum"
  | message _ => "message"
  | list _ => "list"
  | map _ => "map"

/-- A truth value. -/
def toBool? : Value → Option Bool
  | bool b => some b
  | _ => none

/-- An integer or enum number, if it fits a signed 64-bit integer. -/
def toInt64? : Value → Option Int
  | i32 n => some n.toInt
  | enum n => some n.toInt
  | i64 n => some n.toInt
  | u32 n => some n.toNat
  | u64 n => if n.toNat ≤ Int64.maxValue.toInt then some n.toNat else none
  | _ => none

/-- A floating-point number, as a 64-bit word. -/
def toDouble? : Value → Option UInt64
  | f32 word => some (Number.widen word)
  | f64 word => some word
  | _ => none

/-- A text. -/
def toString? : Value → Option String
  | string s => some s
  | _ => none

/-- Octets. -/
def toBytes? : Value → Option Bytes
  | bytes content => some content
  | _ => none

/-- A nested message. -/
def toMessage? : Value → Option Record
  | message slots => some slots
  | _ => none

/-- The elements of a list. -/
def toList? : Value → Option (List Value)
  | list elements => some elements
  | _ => none

/-- The entries of a map. -/
def toMap? : Value → Option (List (MapKey × Value))
  | map entries => some entries
  | _ => none

theorem fits_scalarDefault (kind : Scalar) : (scalarDefault kind).fits kind = true := by
  cases kind <;> rfl

theorem isDefault_scalarDefault (kind : Scalar) : (scalarDefault kind).isDefault = true := by
  cases kind <;> rfl

/-- The zero of a scalar kind is the only value that fits the kind and counts as its default. -/
theorem eq_scalarDefault_of_isDefault {kind : Scalar} {v : Value} (hfit : v.fits kind = true)
    (hzero : v.isDefault = true) : v = scalarDefault kind := by
  cases v <;> cases kind <;>
    simp_all [fits, isDefault, scalarDefault]

/-! ## Equality of numbers -/

mutual

/-- Equality in which floating-point numbers compare as numbers: the zeros are equal, and a
not-a-number equals nothing. -/
def same : Value → Value → Bool
  | f32 a, f32 b => Number.Format.single.sameNumber a.toNat b.toNat
  | f64 a, f64 b => Number.Format.double.sameNumber a.toNat b.toNat
  | bool a, bool b => a == b
  | i32 a, i32 b => a == b
  | i64 a, i64 b => a == b
  | u32 a, u32 b => a == b
  | u64 a, u64 b => a == b
  | string a, string b => a == b
  | bytes a, bytes b => a == b
  | enum a, enum b => a == b
  | message a, message b => sameSlots a b
  | list a, list b => sameElements a b
  | map a, map b => sameEntries a b
  | _, _ => false

/-- Equality of slots. -/
def sameSlots : List (Option Value) → List (Option Value) → Bool
  | [], [] => true
  | none :: a, none :: b => sameSlots a b
  | some v :: a, some w :: b => same v w && sameSlots a b
  | _, _ => false

/-- Equality of elements. -/
def sameElements : List Value → List Value → Bool
  | [], [] => true
  | v :: a, w :: b => same v w && sameElements a b
  | _, _ => false

/-- Equality of entries. -/
def sameEntries : List (MapKey × Value) → List (MapKey × Value) → Bool
  | [], [] => true
  | (k, v) :: a, (l, w) :: b => k == l && same v w && sameEntries a b
  | _, _ => false

end

end Value

/-! ## Records -/

namespace Record

/-- The value in a slot, if the slot exists and is set. -/
def value? (record : Record) (index : Nat) : Option Value :=
  (record[index]?).join

/-- The record with a slot assigned, if the slot exists. -/
def assign? (record : Record) (index : Nat) (value : Option Value) : Option Record :=
  if index < record.length then some (record.set index value) else none

/-- Equality of records in which floating-point numbers compare as numbers. -/
def same (a b : Record) : Bool :=
  Value.sameSlots a b

end Record

end DynProto
