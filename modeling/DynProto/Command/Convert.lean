import DynProto.Command.Setup
import DynProto.Text.Blank

/-!
# Converting messages

Payloads in Base64 become plain objects, and values in JSON become payloads. The third command puts
a bare payload and an index block into a container.
-/

namespace DynProto.Command

/-- The plain object of a payload in Base64, on a line of its own. -/
def decode (setup : Setup) (type payload : String) (pretty : Bool) : Except Error String := do
  let unit ← setup.load
  let binding ← messageOf unit type
  match Base64.decode Base64.standard (Text.utf8 (String.ofList (Text.trim payload.toList))) with
  | .error _ => .error .payload
  | .ok bytes =>
    let message ← (binding.decode bytes).mapError .codec
    let text ← (message.print (if pretty then .pretty else .none)).mapError .codec
    .ok (text ++ "\n")

/-- The payload in Base64 of a message with values in JSON, on a line of its own. -/
def encode (setup : Setup) (type values : String) : Except Error String := do
  let unit ← setup.load
  let binding ← messageOf unit type
  match Json.parse? values with
  | none => .error .values
  | some json =>
    let bytes ← (binding.encode (.values json)).mapError .codec
    .ok (Base64.text bytes ++ "\n")

/-- The container of a payload and an index block, with what to tell the user once it is written to
a path. Without an index file the block is empty. -/
def frame (payload : File) (index : Option File) (out : String) :
    Except Error (Bytes × String) := do
  match payload.content with
  | none => .error (.unreadable payload.path)
  | some content =>
    let block ←
      match index with
      | none => .ok []
      | some file =>
        match file.content with
        | none => .error (.unreadable file.path)
        | some block => .ok block
    let framed ← (Container.frame block content).mapError fun fault =>
      .schema (.malformed (.container fault))
    .ok (framed, "wrote " ++ out ++ " (" ++ Text.natural block.length ++ " byte index, " ++
      Text.natural content.length ++ " byte payload)\n")

end DynProto.Command
