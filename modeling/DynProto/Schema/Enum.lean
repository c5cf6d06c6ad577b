import DynProto.OrderedMap

/-!
# Enum types

An enum type lists names with their numbers. Both may occur more than once: of several values with
one name the last gives its number, of several with one number the first gives its name.

The values are gone through once, and each is entered into two tables, one for every direction in
which values are looked up. A name that is in its table already gets the new number there, whereas
a number keeps the name that it has.
-/

namespace DynProto

/-- The tables in which the values of an enum are looked up. -/
structure EnumTables where
  /-- The number of each name. -/
  byName : OrderedMap String Int32 := []
  /-- The name of each number. -/
  byNumber : OrderedMap Int32 String := []
deriving Repr

/-- The tables with one more value. -/
def EnumTables.declare (tables : EnumTables) (value : String × Int32) : EnumTables where
  byName := OrderedMap.insert value.1 value.2 tables.byName
  byNumber := OrderedMap.insertNew value.2 value.1 tables.byNumber

/-- An enum type. -/
structure EnumType where
  /-- The full name of the type. -/
  name : String
  /-- Names and numbers, in the order in which they are declared. -/
  values : List (String × Int32)
deriving DecidableEq, Repr

namespace EnumType

/-- The tables of the values, entered in the order in which they are declared. -/
def tables (type : EnumType) : EnumTables :=
  type.values.foldl EnumTables.declare {}

/-- The number that a name stands for. -/
def numberOf? (type : EnumType) (name : String) : Option Int32 :=
  OrderedMap.get? name type.tables.byName

/-- The name that a number goes by. -/
def nameOf? (type : EnumType) (number : Int32) : Option String :=
  OrderedMap.get? number type.tables.byNumber

end EnumType

end DynProto
