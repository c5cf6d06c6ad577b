import DynProto.Config
import DynProto.SchemaUnit

/-!
# What commands start from

Every command works on a bundle, a schema unit in a file, with codec options from a configuration
file and from flags. Files are handed to the commands with their contents, so that a command is a
function of what it reads.
-/

namespace DynProto.Command

/-- A file by its path, with its content if it can be read. -/
structure File where
  /-- The path, as the user gave it. -/
  path : String
  /-- The content. -/
  content : Option Bytes

/-- Why a command fails. -/
inductive Error where
  /-- The configuration file cannot be read as a text. -/
  | configUnreadable (path : String)
  /-- The configuration file does not give options. -/
  | configInvalid (path : String)
  /-- The bundle cannot be read. -/
  | bundleUnreadable (path : String)
  /-- The bundle cannot be loaded. -/
  | bundleInvalid (path : String) (cause : LoadError)
  /-- There is no message type with this name, though there may be an enum. -/
  | noMessage (type : String) (isEnum : Bool)
  /-- There is no type with this name. -/
  | noType (type : String)
  /-- The payload is no Base64. -/
  | payload
  /-- The values are no JSON. -/
  | values
  /-- A message cannot be read or written. -/
  | codec (cause : CodecError)
  /-- A file cannot be read. -/
  | unreadable (path : String)
  /-- A file cannot be written. -/
  | unwritable (path : String)
  /-- The declarations are at fault. -/
  | schema (cause : SchemaError)

/-- The wording of an error. -/
def Error.message : Error → String
  | configUnreadable path => "failed to read config " ++ path
  | configInvalid path => "invalid config " ++ path
  | bundleUnreadable path => "failed to read bundle " ++ path
  | bundleInvalid path _ => "failed to load bundle " ++ path
  | noMessage type isEnum =>
    "type '" ++ type ++ "' is " ++
      if isEnum then "an enum, not a message" else "not defined in the bundle"
  | noType type => "type '" ++ type ++ "' is not defined in the bundle"
  | payload => "payload is not valid base64"
  | values => "values are not valid JSON"
  | codec cause => cause.message
  | unreadable path => "failed to read " ++ path
  | unwritable path => "failed to write " ++ path
  | schema cause => cause.message

/-- A bundle with the sources of its options. -/
structure Setup where
  /-- The bundle. -/
  bundle : File
  /-- The configuration file, if one is named. -/
  config : Option File := none
  /-- The recursion limit given by a flag. -/
  recursionLimit : Option UInt32 := none
  /-- Whether a flag asks to ignore keys that name no field. -/
  ignoreUnknownFields : Bool := false

namespace Setup

/-- The options of a configuration file. -/
def fileOptions (file : File) : Except Error Options :=
  match file.content.bind Text.ofUtf8? with
  | none => .error (.configUnreadable file.path)
  | some text =>
    match Config.options? text with
    | some options => .ok options
    | none => .error (.configInvalid file.path)

/-- The options: those of the configuration file, then the flags. -/
def options (setup : Setup) : Except Error Options := do
  let options ← setup.config.elim (.ok {}) fileOptions
  .ok {
    recursionLimit := setup.recursionLimit.getD options.recursionLimit
    ignoreUnknownJsonFields := setup.ignoreUnknownFields || options.ignoreUnknownJsonFields }

/-- The loaded bundle. -/
def load (setup : Setup) : Except Error SchemaUnit := do
  let options ← setup.options
  match setup.bundle.content with
  | none => .error (.bundleUnreadable setup.bundle.path)
  | some buffer =>
    (SchemaUnit.ofBytes buffer options).mapError (.bundleInvalid setup.bundle.path)

end Setup

/-- The message type with a name in a loaded bundle. -/
def messageOf (unit : SchemaUnit) (type : String) : Except Error Binding :=
  match unit.message? type with
  | some binding => .ok binding
  | none => .error (.noMessage type (unit.registry.enumType type).toBool)

end DynProto.Command
