import DynProto.Text.Decimal
import DynProto.Text.Utf8
import DynProto.Wire.Field

/-!
# Containers

A schema may be shipped as a bare payload or in a small container: a magic tag of eight octets, the
length of an index block as four octets with the lowest first, the index block, and the payload.
The index block is opaque. What does not open with the tag is a bare payload as a whole.
-/

namespace DynProto

/-- A buffer split into an index block, if there is a container, and a payload. -/
structure Container where
  /-- The index block of a container. -/
  index : Option Bytes
  /-- The payload. -/
  payload : Bytes
deriving DecidableEq, Repr

namespace Container

/-- The octets that open a container. -/
def magic : Bytes := Text.utf8 "VALDIPRO"

/-- The length of the tag and the length field together. -/
def headerLength : Nat := 12

/-- Why a buffer is no container, or none can be built. -/
inductive Fault where
  /-- A buffer of this size opens with the tag but ends inside the header. -/
  | shortHeader (size : Nat)
  /-- The index block of a buffer of this size reaches beyond its end. -/
  | indexOverrun (index size : Nat)
  /-- The length of the index block does not fit 32 bits. -/
  | indexTooLarge (index : Nat)
deriving DecidableEq, Repr

/-- The wording of a fault. -/
def Fault.message : Fault → String
  | shortHeader size =>
    "framed buffer of " ++ Text.natural size ++ " bytes is shorter than the 12-byte header"
  | indexOverrun index size =>
    "index block of " ++ Text.natural index ++ " bytes overruns framed buffer of " ++
      Text.natural size ++ " bytes"
  | indexTooLarge index => "index block of " ++ Text.natural index ++ " bytes is too large"

/-- The parts of a buffer. -/
def parse (buffer : Bytes) : Except Fault Container :=
  if magic.isPrefixOf buffer then
    if buffer.length < headerLength then .error (.shortHeader buffer.length)
    else
      let length := Wire.ofLittleEndian ((buffer.drop 8).take 4)
      let rest := buffer.drop headerLength
      if rest.length < length then .error (.indexOverrun length buffer.length)
      else .ok ⟨some (rest.take length), rest.drop length⟩
  else .ok ⟨none, buffer⟩

/-- The container of an index block and a payload. -/
def frame (index payload : Bytes) : Except Fault Bytes :=
  if index.length < UInt32.size then
    .ok (magic ++ Wire.littleEndian 4 index.length ++ index ++ payload)
  else .error (.indexTooLarge index.length)

/-- Whether there was a container. -/
def isFramed (container : Container) : Bool :=
  container.index.isSome

/-- The payload of a buffer. -/
def strip (buffer : Bytes) : Except Fault Bytes :=
  (parse buffer).map Container.payload

end Container

end DynProto
