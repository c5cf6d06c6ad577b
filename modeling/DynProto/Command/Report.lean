import DynProto.Command.Setup

/-!
# Listing and describing types

The reports on a bundle: the list of its visible types, and the fields of a message type or the
values of an enum. Each comes as lines of text or as JSON.
-/

namespace DynProto.Command

/-- A text with blanks behind it, up to a width. -/
def padRight (width : Nat) (text : String) : String :=
  text ++ String.ofList (List.replicate (width - text.length) ' ')

/-- A text with blanks in front of it, up to a width. -/
def padLeft (width : Nat) (text : String) : String :=
  String.ofList (List.replicate (width - text.length) ' ') ++ text

/-- Lines, each with its end. -/
def unlines (lines : List String) : String :=
  String.join (lines.map fun line => line ++ "\n")

/-- The visible types of a bundle. -/
def types (setup : Setup) (messagesOnly json : Bool) : Except Error String := do
  let unit ← setup.load
  let listed := unit.registry.listing.filter fun listed => !(messagesOnly && listed.isEnum)
  if json then
    let rows := listed.map fun listed => Json.object [
      ("name", .string listed.name.fullName), ("is_enum", .bool listed.isEnum)]
    .ok (unlines [(Json.array rows).pretty])
  else
    .ok (unlines (listed.map fun listed =>
      padRight 8 (if listed.isEnum then "enum" else "message") ++ listed.name.fullName))

/-- The description of a message type. -/
def describeMessage (type : MessageType) (json : Bool) : String :=
  if json then
    let rows := type.fields.map fun field => Json.object [
      ("number", .number (.natural field.number.toUInt64)), ("name", .string field.name),
      ("json_name", .string field.jsonName), ("kind", .string field.kind.spelling)]
    unlines [(Json.array rows).pretty]
  else
    unlines (("message " ++ type.name) :: type.fields.map fun field =>
      "  " ++ padLeft 4 (Text.natural field.number) ++ "  " ++ padRight 24 field.name ++ " " ++
        field.kind.spelling)

/-- The description of an enum. -/
def describeEnum (type : EnumType) (json : Bool) : String :=
  if json then
    let members := type.values.map fun (name, n) => (name, Json.number (.ofInt32 n))
    unlines [(Json.object (OrderedMap.ofList members)).pretty]
  else
    unlines (("enum " ++ type.name) :: type.values.map fun (name, n) =>
      "  " ++ padLeft 4 (Text.integer n.toInt) ++ "  " ++ name)

/-- The description of a type of a bundle. -/
def describe (setup : Setup) (type : String) (json : Bool) : Except Error String := do
  let unit ← setup.load
  match unit.registry.messageType type with
  | .ok message => .ok (describeMessage message json)
  | .error _ =>
    match unit.registry.enumType type with
    | .ok enum => .ok (describeEnum enum json)
    | .error _ => .error (.noType type)

end DynProto.Command
