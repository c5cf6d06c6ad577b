import DynProto.Container
import DynProto.Descriptor.Node
import DynProto.Json.Printer
import DynProto.Number.Shortest
import DynProto.Text.Base64

/-!
# Errors

What can go wrong, as causes, and the wording of each.

* A `SchemaError` is about the declarations themselves, or about a name that no declaration has.
* A `CodecError` is about one message that is read or written, and names its type.
* A `LoadError` joins the two with the failures of reading a schema from somewhere.

Most causes can also be stated in free words (`other`), for those who report through these types
what they found themselves.
-/

namespace DynProto

/-- Why a schema cannot be read. -/
inductive MalformedReason where
  /-- The container around the schema is broken. -/
  | container (fault : Container.Fault)
  /-- The payload is no descriptor set. -/
  | descriptorSet (fault : Descriptor.Fault)
  /-- A field has a number that no field may have. -/
  | fieldNumber (field : String) (number : Int)
  /-- Another reason. -/
  | other (reason : String)
deriving DecidableEq, Repr

/-- The wording of a reason. -/
def MalformedReason.message : MalformedReason → String
  | container fault => fault.message
  | descriptorSet fault => "invalid descriptor set: " ++ fault.message
  | fieldNumber field number =>
    "field '" ++ field ++ "' has invalid number " ++ Text.integer number
  | other reason => reason

/-- Why a message cannot stand for the entries of a map. -/
inductive MapEntryReason where
  /-- There is no key field. -/
  | missingKey
  /-- There is no value field. -/
  | missingValue
  /-- One field would be both. -/
  | sameField
  /-- The kind of the key field is not allowed for keys. -/
  | key
  /-- The kind of the value field is not allowed for values. -/
  | value
  /-- Another reason. -/
  | other (reason : String)
deriving DecidableEq, Repr

/-- The wording of a reason. -/
def MapEntryReason.message : MapEntryReason → String
  | missingKey => "missing key field"
  | missingValue => "missing value field"
  | sameField => "key and value resolve to the same field"
  | key => "key must be an integral, bool or string scalar"
  | value => "value must be a singular scalar, enum or message"
  | other reason => reason

/-- Why a field is not supported. -/
inductive UnsupportedReason where
  /-- It is a group. -/
  | group
  /-- Another reason. -/
  | other (reason : String)
deriving DecidableEq, Repr

/-- The wording of a reason. -/
def UnsupportedReason.message : UnsupportedReason → String
  | group => "group fields are not supported"
  | other reason => reason

/-- A fault of the declarations, or a name that none has. -/
inductive SchemaError where
  /-- The schema cannot be read. -/
  | malformed (reason : MalformedReason)
  /-- No type has this name. -/
  | unknownType (name : String)
  /-- A field is of a sort that is not supported. -/
  | unsupportedField (field : String) (reason : UnsupportedReason)
  /-- A message that stands for map entries cannot do so. -/
  | invalidMapEntry (type : String) (reason : MapEntryReason)
  /-- A field of a message or enum kind does not name its type. -/
  | missingTypeName (field : String)
  /-- Something was added to a registry that takes nothing more. -/
  | alreadyResolved
  /-- A field has no type number, or one that means nothing. -/
  | unknownFieldType (field : String) (code : Option Int)
deriving DecidableEq, Repr

/-- The wording of an error. -/
def SchemaError.message : SchemaError → String
  | malformed reason => "malformed schema: " ++ reason.message
  | unknownType name => "unknown type: " ++ name
  | unsupportedField field reason => "unsupported field '" ++ field ++ "': " ++ reason.message
  | invalidMapEntry type reason => "invalid map descriptor '" ++ type ++ "': " ++ reason.message
  | missingTypeName field => "field '" ++ field ++ "' does not name its referenced type"
  | alreadyResolved => "descriptor database is already resolved; re-ingestion is unsupported"
  | unknownFieldType field code =>
    let shown := match code with
      | none => "None"
      | some code => "Some(" ++ Text.integer code ++ ")"
    "field '" ++ field ++ "' has unknown field type " ++ shown

/-- The wording for a record with more slots than its type has fields. -/
def slotCountMessage (slots fields : Nat) : String :=
  "record has " ++ Text.natural slots ++ " slots but the type declares " ++ Text.natural fields ++
    " fields"

/-- The wording for something of a kind other than the one that is called for. -/
def expectedMessage (expected found : String) : String :=
  "expected " ++ expected ++ ", found " ++ found

/-- The wording for something that is wrong with a field. -/
def fieldMessage (field reason : String) : String :=
  "field '" ++ field ++ "': " ++ reason

/-- Why octets are no message of a type. -/
inductive DecodeReason where
  /-- They are no fields on the wire. -/
  | wire (fault : Wire.Fault)
  /-- The record that they are read into has too few slots. -/
  | missingSlot
  /-- The declared kind of a map's keys is not allowed for keys. -/
  | mapKey (kind : Scalar)
  /-- Another reason. -/
  | other (reason : String)
deriving DecidableEq, Repr

/-- The wording of a reason. -/
def DecodeReason.message : DecodeReason → String
  | wire fault => fault.message
  | missingSlot => "record does not match its type"
  | mapKey kind => kind.keyword ++ " is not a valid map key"
  | other reason => reason

/-- Why a record is none of its type. -/
inductive EncodeReason where
  /-- It has more slots than the type has fields. -/
  | slotCount (slots fields : Nat)
  /-- The value of a field is not of the kind that the field calls for. -/
  | mismatch (field expected found : String)
  /-- It is the record of a message of another type. -/
  | foreign (type : String)
  /-- Another reason. -/
  | other (reason : String)
deriving DecidableEq, Repr

/-- The wording of a reason. -/
def EncodeReason.message : EncodeReason → String
  | slotCount slots fields => slotCountMessage slots fields
  | mismatch field expected found => fieldMessage field (expectedMessage expected found)
  | foreign type => "cannot encode a '" ++ type ++ "' message"
  | other reason => reason

/-- Why a JSON value does not give the value of a field, or the other way round. -/
inductive PlainReason where
  /-- It is of a kind other than the one that is called for. -/
  | expected (expected found : String)
  /-- A finite number is too large for 32-bit floating point. -/
  | floatRange (word : UInt64)
  /-- An integer does not fit the kind. -/
  | integerRange (n : Int) (kind : Scalar)
  /-- An integer is no enum number. -/
  | enumRange (n : Int) (type : String)
  /-- A string spells no floating-point number. -/
  | notFloat (text : String)
  /-- A number is no integer of the sort. -/
  | notInteger (n : Json.Number) (signed : Bool)
  /-- A string spells no integer of the sort. -/
  | notIntegerText (text : String) (signed : Bool)
  /-- A string is no Base64. -/
  | base64 (fault : Base64.Fault)
  /-- An item is no octet. -/
  | notOctet (item : Json)
  /-- An enum has no value with this name. -/
  | enumName (name type : String)
  /-- A key is no truth value. -/
  | boolKey (key : String)
  /-- The declared kind of a map's keys is not allowed for keys. -/
  | mapKey (kind : Scalar)
  /-- A message or a map stands where no field is declared to hold one. -/
  | outside (kind : String)
deriving Repr

/-- The words for an integer of either sort. -/
def integerWords (signed : Bool) : String :=
  if signed then "a signed integer" else "an unsigned integer"

/-- The wording of a reason. -/
def PlainReason.message : PlainReason → String
  | expected wanted found => expectedMessage wanted found
  | floatRange word => String.ofList (Number.plain.render word) ++ " is out of range for float"
  | integerRange n kind => Text.integer n ++ " is out of range for " ++ kind.keyword
  | enumRange n type => Text.integer n ++ " is out of range for enum " ++ type
  | notFloat text => "'" ++ text ++ "' is not a float"
  | notInteger n signed => n.text ++ " is not " ++ integerWords signed
  | notIntegerText text signed => "'" ++ text ++ "' is not " ++ integerWords signed
  | base64 fault => "invalid base64: " ++ fault.message
  | notOctet item => item.compact ++ " is not an octet"
  | enumName name type => "'" ++ name ++ "' is not a value of enum " ++ type
  | boolKey key => "'" ++ key ++ "' is not a bool map key"
  | mapKey kind => kind.keyword ++ " is not a valid map key"
  | outside kind => kind ++ " value outside a message or map field"

/-- Why a JSON value is no message of a type, or a record cannot be shown as one. -/
inductive JsonReason where
  /-- The text is no JSON. -/
  | notJson
  /-- A message is written as something other than an object. -/
  | notObject (found : String)
  /-- A key names no field. -/
  | unknownField (key : String)
  /-- Something is wrong with the value of a field. -/
  | field (name : String) (reason : PlainReason)
  /-- The record has more slots than the type has fields. -/
  | slotCount (slots fields : Nat)
  /-- Another reason. -/
  | other (reason : String)
deriving Repr

/-- The wording of a reason. -/
def JsonReason.message : JsonReason → String
  | notJson => "the text is no JSON value"
  | notObject found => expectedMessage "object" found
  | unknownField key => "unknown field '" ++ key ++ "'"
  | field name reason => fieldMessage name reason.message
  | slotCount slots fields => slotCountMessage slots fields
  | other reason => reason

/-- A failure to read or write a message. -/
inductive CodecError where
  /-- Octets are no message of the type. -/
  | decode (type : String) (reason : DecodeReason)
  /-- A record is none of the type. -/
  | encode (type : String) (reason : EncodeReason)
  /-- A JSON value is no message of the type. -/
  | json (type : String) (reason : JsonReason)
  /-- Messages are nested more deeply than the options allow. -/
  | recursionLimit (limit : UInt32)
  /-- A type that a field refers to cannot be found. -/
  | schema (error : SchemaError)
deriving Repr

/-- The wording of an error. -/
def CodecError.message : CodecError → String
  | decode type reason => "failed to decode '" ++ type ++ "': " ++ reason.message
  | encode type reason => "failed to encode '" ++ type ++ "': " ++ reason.message
  | json type reason => "invalid JSON for '" ++ type ++ "': " ++ reason.message
  | recursionLimit limit =>
    "recursion limit of " ++ Text.natural limit.toNat ++ " nested messages exceeded"
  | schema error => error.message

/-- A failure to load or to use a schema. -/
inductive LoadError where
  /-- The declarations are at fault. -/
  | schema (error : SchemaError)
  /-- A message is at fault. -/
  | codec (error : CodecError)
  /-- A name is none that a schema unit can have. -/
  | invalidUnitName (name : String)
  /-- The path of a file holds a NUL, which no path can. -/
  | nulInPath
  /-- The name of a file is longer than a directory can hold. -/
  | nameTooLong
  /-- There is no such file. -/
  | notFound
deriving Repr

/-- The wording of an error. -/
def LoadError.message : LoadError → String
  | schema error => "schema error: " ++ error.message
  | codec error => "codec error: " ++ error.message
  | invalidUnitName name => "io error: invalid schema unit name '" ++ name ++ "'"
  | nulInPath => "io error: file name contained an unexpected NUL byte"
  | nameTooLong => "io error: file name too long"
  | notFound => "io error: file not found"

end DynProto
