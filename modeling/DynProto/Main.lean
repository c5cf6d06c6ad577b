import DynProto.Command.Convert
import DynProto.Command.Invocation
import DynProto.Command.Report

/-!
# The command line

Reads the files that a command names, runs the command and prints what it returns. An error goes to
the standard error and makes the exit code one; words that ask for no command make it two.
-/

namespace DynProto.Main

open DynProto.Command

/-- A file with its content. -/
def readFile (path : String) : IO File := do
  match ← (IO.FS.readBinFile path).toBaseIO with
  | .ok content => pure ⟨path, some content.toList⟩
  | .error _ => pure ⟨path, none⟩

/-- What a command on a bundle starts from. -/
def readSetup (words : BundleWords) : IO Setup := do
  let bundle ← readFile words.bundle
  let config ← words.config.mapM readFile
  pure ⟨bundle, config, words.recursionLimit, words.ignoreUnknownFields⟩

/-- Runs a command. -/
def run : Invocation → IO (Except Error String)
  | .types words messagesOnly json => do
    let setup ← readSetup words
    pure (types setup messagesOnly json)
  | .describe words type json => do
    let setup ← readSetup words
    pure (describe setup type json)
  | .decode words type payload pretty => do
    let setup ← readSetup words
    pure (decode setup type payload pretty)
  | .encode words type values => do
    let setup ← readSetup words
    pure (encode setup type values)
  | .frame payload out index => do
    let payload ← readFile payload
    let index ← index.mapM readFile
    match frame payload index out with
    | .error error => pure (.error error)
    | .ok (framed, text) =>
      match ← (IO.FS.writeBinFile out ⟨framed.toArray⟩).toBaseIO with
      | .ok _ => pure (.ok text)
      | .error _ => pure (.error (.unwritable out))

end DynProto.Main

/-- Runs the command that the words of the command line ask for. -/
def main (words : List String) : IO UInt32 := do
  match DynProto.Command.Invocation.ofList? words with
  | none =>
    IO.eprint DynProto.Command.Invocation.usage
    pure 2
  | some invocation =>
    match ← DynProto.Main.run invocation with
    | .ok text =>
      IO.print text
      pure 0
    | .error error =>
      IO.eprintln ("error: " ++ error.message)
      pure 1
