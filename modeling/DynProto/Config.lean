import DynProto.Options
import DynProto.Yaml.Mapping

/-!
# Configuration files

The codec options in a configuration file. The file is a YAML document, a mapping from the names of
options to their values, or empty for the defaults.

Numbers and truth values are written without quotes, whatever their tag, or as a literal block that
is tagged as one. A number is written in decimal, or with a mark in front in base sixteen, eight or
two; a truth value in lower case, capitalised or in upper case.
-/

namespace DynProto.Config

/-- The text of a scalar that can stand for other than a text: a plain one, or a literal block with
a tag that says so. -/
def meaning? (tag : String) (scalar : Yaml.ScalarNode) : Option (List Char) :=
  match scalar.style with
  | .plain => some scalar.text
  | .literal => if scalar.tag = some (Text.utf8 tag) then some scalar.text else none
  | _ => none

/-- The value of a digit in any base up to sixteen. -/
def digitValue (c : Char) : Nat :=
  (Json.hexValue? c).getD 16

/-- The number spelled by one or more digits of a base. -/
def inBase? (base : Nat) (cs : List Char) : Option Nat :=
  if !cs.isEmpty && cs.all (fun c => digitValue c < base) then
    some (cs.foldl (fun n c => base * n + digitValue c) 0)
  else none

/-- The number that a text spells. Digits after a leading zero spell none. -/
def number? (cs : List Char) : Option Nat :=
  let unsigned := match cs with
    | '+' :: rest => rest
    | cs => cs
  match unsigned with
  | '0' :: 'x' :: rest => inBase? 16 rest
  | '0' :: 'o' :: rest => inBase? 8 rest
  | '0' :: 'b' :: rest => inBase? 2 rest
  | ['0'] => some 0
  | '0' :: _ => none
  | unsigned => Text.natural? unsigned

/-- The recursion limit that a scalar gives. -/
def limit? (scalar : Yaml.ScalarNode) : Option UInt32 := do
  let cs ← meaning? "tag:yaml.org,2002:int" scalar
  let n ← number? cs
  if n < UInt32.size then some n.toUInt32 else none

/-- The truth value that a scalar gives. -/
def flag? (scalar : Yaml.ScalarNode) : Option Bool := do
  let cs ← meaning? "tag:yaml.org,2002:bool" scalar
  if ["true", "True", "TRUE"].contains (String.ofList cs) then some true
  else if ["false", "False", "FALSE"].contains (String.ofList cs) then some false
  else none

/-- The options that a configuration file gives. Their names may be written in any style. -/
def options? (text : String) : Option Options := do
  let pairs ← Yaml.pairs? text
  Options.ofMembers? limit? flag? (pairs.map fun (key, value) => (String.ofList key.text, value))

end DynProto.Config
