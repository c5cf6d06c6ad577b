import DynProto.Descriptor.Layout
import DynProto.Wire.Content

/-!
# Reading descriptor sets

A message of a descriptor set is read into the list of its fields as they occur. This keeps all
that later readings need: a field that may be given once takes its last occurrence, a repeated one
all of them, and a nested message that is given several times is the concatenation of its parts.

Nested messages are read in place: their fields are taken from all the octets that follow, and the
last one must end where the message does. A fault carries the path of fields that leads to it.
-/

namespace DynProto.Descriptor

open Wire

/-- A fault inside a descriptor set, with the fields that lead to it, the innermost first. -/
structure Fault where
  /-- Messages and their fields around the fault. -/
  path : List (NodeKind × String)
  /-- What is wrong there. -/
  fault : Wire.Fault
deriving DecidableEq, Repr

namespace Fault

/-- A fault with no field around it. -/
def bare (fault : Wire.Fault) : Fault :=
  ⟨[], fault⟩

/-- A fault with one more field around it. -/
def inside (kind : NodeKind) (field : String) (fault : Fault) : Fault :=
  ⟨fault.path ++ [(kind, field)], fault.fault⟩

/-- The wording of a fault. -/
def message (fault : Fault) : String :=
  let steps := fault.path.map fun (kind, field) => kind.name ++ "." ++ field ++ ": "
  Wire.Fault.opening ++ String.join steps ++ fault.fault.description

end Fault

/-- What a field of a descriptor set was found to hold. -/
inductive Datum where
  /-- A text. -/
  | text (s : String)
  /-- A signed 32-bit integer. -/
  | int (n : Int32)
  /-- A truth value. -/
  | flag (b : Bool)
  /-- The fields of a nested message. -/
  | node (fields : List (Nat × Datum))
  /-- Something that defines no type. -/
  | other

/-- The fields of a message in the order in which they occur, by number. -/
abbrev Node := List (Nat × Datum)

/-- The content of a field with a scalar kind. -/
def scalarReader (wireType : WireType) (kind : Scalar) (datum : Value → Datum) :
    Reader Wire.Fault Datum :=
  if wireType = kind.wireType then kind.reader.map datum
  else Reader.fail (.mismatch wireType kind.wireType)

/-- A value read as part of a descriptor set. -/
def Datum.ofValue : Value → Datum
  | .string s => text s
  | .i32 n => int n
  | .bool b => flag b
  | _ => other

/-- The content of a field that is no message. -/
def leafReader (wireType : WireType) : Content → Reader Wire.Fault Datum
  | .string => scalarReader wireType .string .ofValue
  | .bytes => scalarReader wireType .bytes .ofValue
  | .int32 => scalarReader wireType .int32 .ofValue
  | .int32s =>
    if wireType = .delimited then (Reader.packed id Scalar.int32Reader).map fun _ => .other
    else scalarReader wireType .int32 fun _ => .other
  | .bool => scalarReader wireType .bool .ofValue
  | .uint64 => scalarReader wireType .uint64 .ofValue
  | .int64 => scalarReader wireType .int64 .ofValue
  | .double => scalarReader wireType .double .ofValue
  | .node _ => Reader.fail (.mismatch wireType .delimited)

/-- One field of a message, given the depth left for groups in unknown fields and the reader of
nested messages. An unknown field gives nothing. -/
def fieldWith (depth : Nat) (nested : NodeKind → Reader Fault Datum) (kind : NodeKind) :
    Reader Fault (Option (Nat × Datum)) :=
  (Reader.key.mapError .bare).andThen fun key =>
    match kind.field? key.number with
    | none => ((Reader.skip depth key).mapError .bare).map fun _ => none
    | some field =>
      let content : Reader Fault Datum :=
        match field.content with
        | .node child =>
          if key.wireType = .delimited then nested child
          else Reader.fail (.bare (.mismatch key.wireType .delimited))
        | leaf => (leafReader key.wireType leaf).mapError .bare
      (content.mapError (Fault.inside kind field.name)).map fun datum => some (key.number, datum)

/-- One field of a message inside which so many further messages may be nested. -/
def fieldReader : Nat → NodeKind → Reader Fault (Option (Nat × Datum))
  | 0 => fieldWith 0 fun _ => Reader.fail (.bare .tooDeep)
  | depth + 1 => fieldWith (depth + 1) fun child =>
    (Reader.packed Fault.bare (fieldReader depth child)).map fun fields =>
      .node (fields.filterMap id)

/-- How deeply the messages of a descriptor set may be nested. -/
def maxDepth : Nat := 100

/-- The fields of a descriptor set. -/
def readSet (bytes : Bytes) : Except Fault Node := do
  let (fields, _) ← (fieldReader maxDepth .fileSet).untilLeft 0 bytes
  .ok (fields.filterMap id)

/-! ## Views of a message -/

namespace Node

/-- Everything that was given for a field. -/
def all (number : Nat) (node : Node) : List Datum :=
  (node.filter fun field => field.1 == number).map Prod.snd

/-- The last text given for a field; empty if there is none. -/
def text (number : Nat) (node : Node) : String :=
  ((node.all number).reverse.findSome? fun | .text s => some s | _ => none).getD ""

/-- The last integer given for a field. -/
def int? (number : Nat) (node : Node) : Option Int32 :=
  (node.all number).reverse.findSome? fun | .int n => some n | _ => none

/-- The last truth value given for a field; false if there is none. -/
def flag (number : Nat) (node : Node) : Bool :=
  ((node.all number).reverse.findSome? fun | .flag b => some b | _ => none).getD false

/-- All parts given for a nested message, as one message. -/
def part (number : Nat) (node : Node) : Node :=
  (node.all number).flatMap fun | .node fields => fields | _ => []

end Node

end DynProto.Descriptor
