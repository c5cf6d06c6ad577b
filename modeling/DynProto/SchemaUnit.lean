import DynProto.Namespace
import DynProto.Registry.Ingest

/-!
# Schema units

A schema unit is a named schema, in a container or bare. Loading it takes its declarations into a
new registry, closes the registry and builds the namespace of all its visible message types.

Units in a directory are files called after the unit. A unit name that could lead out of the
directory, or to a hidden file, is refused.
-/

namespace DynProto

/-- A loaded schema unit. -/
structure SchemaUnit where
  /-- The declared types. -/
  registry : Registry
  /-- The namespace of the message types. -/
  names : Namespace
  /-- What was taken from the schema. -/
  summary : Summary

namespace SchemaUnit

/-- The unit in a buffer. -/
def ofBytes (buffer : Bytes) (options : Options) : Except LoadError SchemaUnit :=
  match ({ options } : Registry).addSet buffer with
  | (_, .error error) => .error (.schema error)
  | (registry, .ok summary) =>
    let registry := registry.resolve
    match registry.namespaceOf registry.messageNames with
    | .ok names => .ok ⟨registry, names, summary⟩
    | .error error => .error (.schema error)

/-- The binding at a dotted path. -/
def message? (unit : SchemaUnit) (path : String) : Option Binding :=
  unit.names.lookup? path

/-- The unit with more names in its namespace, and the error for the first that has no type. -/
def extend (unit : SchemaUnit) (names : List QualifiedName) : SchemaUnit × Except LoadError Unit :=
  let (tree, outcome) := unit.registry.populate unit.names names
  ({ unit with names := tree }, outcome.mapError .schema)

/-! ## Units in a directory -/

/-- What the name of a unit's file ends in. -/
def fileExtension : String := "protodecl"

/-- The most octets that the name of a file has. -/
def maxFileNameSize : Nat := 255

/-- The name of a unit's file. -/
def fileName (unit : String) : String :=
  unit ++ "." ++ fileExtension

/-- The path of a unit's file in a directory. A unit that is an absolute path stays one. -/
def path (directory unit : String) : String :=
  let file := fileName unit
  if file.startsWith "/" then file
  else if directory.endsWith "/" || directory.isEmpty then directory ++ file
  else directory ++ "/" ++ file

/-- Whether a name may be that of a unit: it is not empty, does not start with a dot and holds no
separator of directories. -/
def isName (unit : String) : Bool :=
  match unit.toList with
  | [] => false
  | c :: rest => c != '.' && !(c :: rest).any fun c => c == '/' || c == '\\'

/-- Loads a unit from a directory, whose files `read` finds by their paths. -/
def load (read : String → Option Bytes) (directory unit : String) (options : Options) :
    Except LoadError SchemaUnit :=
  if isName unit then
    if (path directory unit).toList.contains '\x00' then .error .nulInPath
    else if maxFileNameSize < (fileName unit).utf8ByteSize then .error .nameTooLong
    else
      match read (path directory unit) with
      | some buffer => ofBytes buffer options
      | none => .error .notFound
  else .error (.invalidUnitName unit)

end SchemaUnit

end DynProto
