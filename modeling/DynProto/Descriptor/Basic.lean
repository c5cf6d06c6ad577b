/-!
# Descriptors

The declarations of a schema file, as far as they define message types and enums. Names that are
missing are empty, numbers that are missing are zero.
-/

namespace DynProto

/-- The declaration of a field. -/
structure FieldDescriptor where
  /-- The declared name. -/
  name : String := ""
  /-- The field number, which has not been checked. -/
  number : Int := 0
  /-- Whether the field is declared repeated. -/
  repeated : Bool := false
  /-- The number of the field's type, if it has one. -/
  typeCode : Option Int := none
  /-- The name of the message or enum that the field refers to. -/
  typeName : String := ""
  /-- The name for JSON. -/
  jsonName : String := ""
deriving DecidableEq, Repr

/-- The declaration of an enum. -/
structure EnumDescriptor where
  /-- The declared name. -/
  name : String := ""
  /-- Names and numbers of the values. -/
  values : List (String × Int32) := []
deriving DecidableEq, Repr

/-- The declaration of a message, with those inside it. -/
inductive MessageDescriptor where
  /-- A message with its fields, nested messages and nested enums; `mapEntry` marks a message that
  stands for the entries of a map field. -/
  | mk (name : String) (fields : List FieldDescriptor) (nested : List MessageDescriptor)
    (enums : List EnumDescriptor) (mapEntry : Bool)
deriving Inhabited, Repr

namespace MessageDescriptor

/-- The declared name. -/
def name : MessageDescriptor → String
  | mk name _ _ _ _ => name

/-- The declared fields. -/
def fields : MessageDescriptor → List FieldDescriptor
  | mk _ fields _ _ _ => fields

/-- The messages declared inside. -/
def nested : MessageDescriptor → List MessageDescriptor
  | mk _ _ nested _ _ => nested

/-- The enums declared inside. -/
def enums : MessageDescriptor → List EnumDescriptor
  | mk _ _ _ enums _ => enums

/-- Whether the message stands for the entries of a map field. -/
def isMapEntry : MessageDescriptor → Bool
  | mk _ _ _ _ mapEntry => mapEntry

end MessageDescriptor

/-- The declarations of a file. -/
structure FileDescriptor where
  /-- The name of the file. -/
  name : String := ""
  /-- The package that the declarations belong to. -/
  package : String := ""
  /-- The messages at the top level. -/
  messages : List MessageDescriptor := []
  /-- The enums at the top level. -/
  enums : List EnumDescriptor := []
deriving Repr

end DynProto
