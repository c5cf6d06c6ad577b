import DynProto.Text.Decimal

/-!
# Command lines

The words of a command line, sorted into operands and options, and the command that they ask for.
An option starts with two dashes; its value is the next word, or stands in the same word behind an
equals sign. Options and operands may come in any order, an option at most once. Every word behind a
lone `--` is an operand.
-/

namespace DynProto.Command

/-- The words of a command line, sorted. -/
structure Words where
  /-- The words that are no options, in order. -/
  operands : List String := []
  /-- The options that have a value. -/
  settings : List (String × String) := []
  /-- The options without a value. -/
  flags : List String := []

namespace Words

/-- The words with an operand in front. -/
def addOperand (operand : String) (words : Words) : Words :=
  { words with operands := operand :: words.operands }

/-- The words with one more option that has a value, unless it is given already. -/
def addSetting? (name value : String) (words : Words) : Option Words :=
  if (words.settings.lookup name).isSome then none
  else some { words with settings := (name, value) :: words.settings }

/-- The words with one more option without a value, unless it is given already. -/
def addFlag? (name : String) (words : Words) : Option Words :=
  if words.flags.contains name then none
  else some { words with flags := name :: words.flags }

/-- An option's name and the value behind its equals sign. -/
def splitOption (word : String) : String × Option String :=
  let cs := word.toList
  match cs.dropWhile (· != '=') with
  | [] => (word, none)
  | _ :: value => (String.ofList (cs.takeWhile (· != '=')), some (String.ofList value))

/-- The words of a command that knows the given options, those with a value first. -/
def ofList? (valued flags : List String) : List String → Option Words
  | [] => some {}
  | word :: rest =>
    if word = "--" then some { operands := rest }
    else if word.startsWith "--" then
      match splitOption word, rest with
      | (name, none), rest =>
        if flags.contains name then (ofList? valued flags rest).bind (addFlag? name)
        else if valued.contains name then
          match rest with
          | value :: rest => (ofList? valued flags rest).bind (addSetting? name value)
          | [] => none
        else none
      | (name, some value), rest =>
        if valued.contains name then
          (ofList? valued flags rest).bind (addSetting? name value)
        else none
    else (ofList? valued flags rest).map (addOperand word)

end Words

/-- Where a bundle and its options come from. -/
structure BundleWords where
  /-- The path of the bundle. -/
  bundle : String
  /-- The path of the configuration file. -/
  config : Option String
  /-- The recursion limit. -/
  recursionLimit : Option UInt32
  /-- Whether keys that name no field are ignored. -/
  ignoreUnknownFields : Bool

/-- A command with what its words say. -/
inductive Invocation where
  /-- List the visible types. -/
  | types (bundle : BundleWords) (messagesOnly json : Bool)
  /-- Describe a type. -/
  | describe (bundle : BundleWords) (type : String) (json : Bool)
  /-- Turn a payload into a plain object. -/
  | decode (bundle : BundleWords) (type payload : String) (pretty : Bool)
  /-- Turn values into a payload. -/
  | encode (bundle : BundleWords) (type values : String)
  /-- Put a payload into a container, and the container into a file. -/
  | frame (payload out : String) (index : Option String)

namespace Invocation

/-- The bundle that words of a command name. -/
def bundleOf? (words : Words) (path : String) : Option BundleWords := do
  let limit ← match words.settings.lookup "--recursion-limit" with
    | none => some none
    | some digits => do
      let n ← Text.natural? digits.toList
      if n < UInt32.size then some (some n.toUInt32) else none
  some {
    bundle := path
    config := words.settings.lookup "--config"
    recursionLimit := limit
    ignoreUnknownFields := words.flags.contains "--ignore-unknown-fields" }

/-- The words of a command on a bundle that knows the given flags besides the common ones. -/
def bundleWords? (flags rest : List String) : Option Words :=
  Words.ofList? ["--config", "--recursion-limit"] ("--ignore-unknown-fields" :: flags) rest

/-- The command that the words of a command line ask for. -/
def ofList? : List String → Option Invocation
  | "types" :: rest => do
    let words ← bundleWords? ["--messages-only", "--json"] rest
    match words.operands with
    | [path] =>
      let bundle ← bundleOf? words path
      some (.types bundle (words.flags.contains "--messages-only") (words.flags.contains "--json"))
    | _ => none
  | "describe" :: rest => do
    let words ← bundleWords? ["--json"] rest
    match words.operands with
    | [path, type] =>
      let bundle ← bundleOf? words path
      some (.describe bundle type (words.flags.contains "--json"))
    | _ => none
  | "decode" :: rest => do
    let words ← bundleWords? ["--pretty"] rest
    match words.operands with
    | [path, type, payload] =>
      let bundle ← bundleOf? words path
      some (.decode bundle type payload (words.flags.contains "--pretty"))
    | _ => none
  | "encode" :: rest => do
    let words ← bundleWords? [] rest
    match words.operands with
    | [path, type, values] =>
      let bundle ← bundleOf? words path
      some (.encode bundle type values)
    | _ => none
  | "frame" :: rest => do
    let words ← Words.ofList? ["--index"] [] rest
    match words.operands with
    | [payload, out] => some (.frame payload out (words.settings.lookup "--index"))
    | _ => none
  | _ => none

/-- What to tell a user whose words ask for no command. -/
def usage : String := String.join ([
  "usage: dynproto types BUNDLE [--messages-only] [--json]",
  "       dynproto describe BUNDLE TYPE [--json]",
  "       dynproto decode BUNDLE TYPE PAYLOAD [--pretty]",
  "       dynproto encode BUNDLE TYPE VALUES",
  "       dynproto frame PAYLOAD OUT [--index FILE]",
  "options for a bundle: [--config FILE] [--recursion-limit N] [--ignore-unknown-fields]"].map
    fun line => line ++ "\n")

end Invocation

end DynProto.Command
