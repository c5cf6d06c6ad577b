import DynProto.Descriptor.Basic
import DynProto.Descriptor.Node

/-!
# Descriptors in descriptor sets

The declarations that the messages of a descriptor set stand for, by the numbers of their fields.
-/

namespace DynProto.Descriptor

/-- The label number of a repeated field; every other label is that of a single one. -/
def repeatedLabel : Int32 := 3

/-- The declaration of a field. -/
def fieldOfNode (node : Node) : FieldDescriptor where
  name := node.text 1
  number := ((node.int? 3).getD 0).toInt
  repeated := node.int? 4 == some repeatedLabel
  typeCode := (node.int? 5).map Int32.toInt
  typeName := node.text 6
  jsonName := node.text 10

/-- The declaration of an enum. -/
def enumOfNode (node : Node) : EnumDescriptor where
  name := node.text 1
  values := (node.all 2).filterMap fun
    | .node value => some (Node.text 1 value, (Node.int? 2 value).getD 0)
    | _ => none

/-- All nested messages given for a field. -/
def nodes (number : Nat) (node : Node) : List Node :=
  (node.all number).filterMap fun | .node fields => some fields | _ => none

mutual

/-- The declaration of a message. -/
def messageOfNode : Datum → MessageDescriptor
  | .node fields =>
    .mk (Node.text 1 fields) ((nodes 2 fields).map fieldOfNode) (nestedOfNode fields)
      ((nodes 4 fields).map enumOfNode) (Node.flag 7 (Node.part 7 fields))
  | _ => .mk "" [] [] [] false

/-- The declarations of the messages inside a message. -/
def nestedOfNode : List (Nat × Datum) → List MessageDescriptor
  | [] => []
  | (number, datum) :: rest =>
    if number = 3 then messageOfNode datum :: nestedOfNode rest else nestedOfNode rest

end

/-- The declarations of a file. -/
def fileOfNode (node : Node) : FileDescriptor where
  name := node.text 1
  package := node.text 2
  messages := (node.all 4).map messageOfNode
  enums := (nodes 5 node).map enumOfNode

/-- The files of a descriptor set. -/
def readFiles (bytes : Bytes) : Except Fault (List FileDescriptor) :=
  (readSet bytes).map fun node => (nodes 1 node).map fileOfNode

end DynProto.Descriptor
