import DynProto.Name.CamelCase
import DynProto.Value

/-!
# Fields

What a field of a message type holds and the names it answers to. A field that holds messages or
enum numbers refers to its type by name only; the name is looked up when a codec needs it, so types
may refer to each other, and to themselves, in any order.
-/

namespace DynProto

/-- What the values of a map field are. -/
inductive MapValue where
  /-- Values of a scalar kind. -/
  | scalar (kind : Scalar)
  /-- Numbers of the enum with this name. -/
  | enum (type : String)
  /-- Messages of the type with this name. -/
  | message (type : String)
deriving DecidableEq, Repr

/-- What a field holds. -/
inductive FieldKind where
  /-- A value of a scalar kind, or a list of them. -/
  | scalar (kind : Scalar) (repeated : Bool)
  /-- A number of the enum with this name, or a list of them. -/
  | enum (type : String) (repeated : Bool)
  /-- A message of the type with this name, or a list of them. -/
  | message (type : String) (repeated : Bool)
  /-- A map from keys of a scalar kind. -/
  | map (key : Scalar) (value : MapValue)
deriving DecidableEq, Repr

namespace FieldKind

/-- The word for what a field holds. -/
def label : FieldKind → String
  | scalar _ _ => "scalar"
  | enum _ _ => "enum"
  | message _ _ => "message"
  | map _ _ => "map"

/-- Whether a field holds a list. A map is none. -/
def isRepeated : FieldKind → Bool
  | scalar _ repeated | enum _ repeated | message _ repeated => repeated
  | map _ _ => false

/-- What the slot of a field holds when nothing was set. Only the slot of a single message is
empty then. -/
def default : FieldKind → Option Value
  | scalar _ true | enum _ true | message _ true => some (.list [])
  | scalar kind false => some (Value.scalarDefault kind)
  | enum _ false => some (.enum 0)
  | message _ false => none
  | map _ _ => some (.map [])

/-- How a field's kind is written in a schema, such as `repeated int32` or `map<string, a.B>`. -/
def spelling : FieldKind → String
  | scalar kind repeated => times repeated ++ kind.keyword
  | enum type repeated | message type repeated => times repeated ++ type
  | map key value => "map<" ++ key.keyword ++ ", " ++ valueSpelling value ++ ">"
where
  /-- The word in front of a repeated field. -/
  times (repeated : Bool) : String := if repeated then "repeated " else ""
  /-- How the kind of a map's values is written. -/
  valueSpelling : MapValue → String
    | .scalar kind => kind.keyword
    | .enum type | .message type => type

end FieldKind

/-- A field of a message type. -/
structure Field where
  /-- The number of the field on the wire. -/
  number : Nat
  /-- The name under which the field is declared. -/
  name : String
  /-- The name for JSON, where the declaration gives one. -/
  givenJsonName : Option String
  /-- What the field holds. -/
  kind : FieldKind
deriving DecidableEq, Repr

namespace Field

/-- The declared name in lower camel case. -/
def localName (field : Field) : String :=
  lowerCamelCase field.name

/-- The name for JSON: the given one, otherwise the declared name in lower camel case. -/
def jsonName (field : Field) : String :=
  field.givenJsonName.getD field.localName

/-- Whether a key is one of the field's three names. -/
def answersTo (field : Field) (key : String) : Bool :=
  field.localName == key || field.name == key || field.jsonName == key

end Field

end DynProto
