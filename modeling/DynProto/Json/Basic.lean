import DynProto.Number.Format
import DynProto.OrderedMap

/-!
# JSON values

A JSON value as a tree. Numbers are held in the narrowest of three forms: a natural number of 64
bits, a negative integer of 64 bits, or a finite 64-bit floating-point number.

The members of an object are a list of keys and values. In a *canonical* value that list is an
ordered map: keys ascend and each occurs once. `Json.canonical` brings any value into that form.
-/

namespace DynProto

/-- A number in a JSON value. -/
inductive Json.Number where
  /-- An integer that is not negative. -/
  | natural (n : UInt64)
  /-- A negative integer. -/
  | negative (n : Int64)
  /-- A finite floating-point number, by its word. -/
  | double (word : UInt64)
deriving DecidableEq, Repr

/-- A JSON value. -/
inductive Json where
  /-- `null`. -/
  | null
  /-- `true` or `false`. -/
  | bool (b : Bool)
  /-- A number. -/
  | number (n : Json.Number)
  /-- A string. -/
  | string (s : String)
  /-- An array. -/
  | array (items : List Json)
  /-- An object. -/
  | object (members : List (String × Json))
deriving Repr

namespace Json

open DynProto.Number (Format)

/-- The name of the kind of value, for messages. -/
def kindName : Json → String
  | null => "null"
  | bool _ => "bool"
  | number _ => "number"
  | string _ => "string"
  | array _ => "array"
  | object _ => "object"

/-- The number of an integer. -/
def Number.ofInt32 (n : Int32) : Number :=
  if n < 0 then .negative n.toInt64 else .natural n.toInt.toNat.toUInt64

/-- The word of the floating-point number nearest to a number. -/
def Number.toDouble : Number → UInt64
  | natural n => (Format.double.ofInt n.toNat).toUInt64
  | negative n => (Format.double.ofInt n.toInt).toUInt64
  | double word => word

/-- The integer that a number is held as, if it is held as one. -/
def Number.held? : Number → Option Int
  | natural n => some n.toNat
  | negative n => some n.toInt
  | double _ => none

/-- The integer that a number stands for, if it stands for one. -/
def Number.toInt? : Number → Option Int
  | natural n => some n.toNat
  | negative n => some n.toInt
  | double word => Format.double.integer? word.toNat

mutual

/-- The value with the members of every object in canonical order; of several members with one
key the last one stays. -/
def canonical : Json → Json
  | array items => array (canonicalItems items)
  | object members => object (OrderedMap.ofList (canonicalMembers members))
  | other => other

/-- The items of an array, each brought into canonical form. -/
def canonicalItems : List Json → List Json
  | [] => []
  | item :: rest => item.canonical :: canonicalItems rest

/-- The members of an object, each brought into canonical form. -/
def canonicalMembers : List (String × Json) → List (String × Json)
  | [] => []
  | (key, value) :: rest => (key, value.canonical) :: canonicalMembers rest

end

end Json

end DynProto
