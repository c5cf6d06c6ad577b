import DynProto.Proofs.Binary.Piece
import DynProto.Proofs.Binary.WellFormed
import DynProto.Proofs.Plain.WellFormed
import DynProto.Proofs.Registry.Reachable

/-!
# Records that codecs produce

A record of a type comes about in three ways: created from values, read from a plain object, or read
from octets. Whichever it is, the record is well-formed, and it can be written in binary
(`encode_of_produced`). Nothing is asked of the registry for this. A type that the writer looks up
for a message was looked up when the message was read.
-/

namespace DynProto

/-- A record of a type that a codec produced. -/
inductive Produced (registry : Registry) (type : MessageType) : Record → Prop
  /-- It was created from values, or from none. -/
  | create {values : Option Json} {record : Record}
    (h : Plain.create registry type values = .ok record) : Produced registry type record
  /-- It was read from a plain object; the options say whether unknown keys were refused. -/
  | json {json : Json} {record : Record}
    (h : Plain.decode registry type json = .ok record) : Produced registry type record
  /-- It was read from octets. -/
  | binary {bytes : Bytes} {record : Record}
    (h : Binary.decode registry type bytes = .ok record) : Produced registry type record

variable {registry : Registry} {type : MessageType} {record : Record}

/-- A record that a codec produced is of its type throughout. -/
theorem wellFormed_of_produced (h : Produced registry type record) :
    record.WellFormed registry type := by
  rcases h with h | h | h
  · exact Plain.wellFormed_of_create h
  · exact Plain.wellFormed_of_read h
  · exact Binary.wellFormed_of_decode h

/-- A record that a codec produced is of its type throughout and can be written in binary. -/
theorem encode_of_produced (h : Produced registry type record) :
    record.WellFormed registry type ∧ ∃ bytes, Binary.encode registry type record = .ok bytes := by
  have hwellFormed := wellFormed_of_produced h
  exact ⟨hwellFormed, Binary.exists_encode_of_wellFormed hwellFormed⟩

/-- A tree that is read from an object, with a named child and without its other fields. -/
theorem encode_of_produced_tree :
    Record.WellFormed (treeRegistry {}) treeType
        [some (.i32 0), some (.list []), some (.map [(.string "left",
          .message [some (.i32 3), some (.list []), some (.map [])])])] ∧
      ∃ bytes, Binary.encode (treeRegistry {}) treeType
        [some (.i32 0), some (.list []), some (.map [(.string "left",
          .message [some (.i32 3), some (.list []), some (.map [])])])] = .ok bytes :=
  encode_of_produced (.json (show Plain.decode (treeRegistry {}) treeType
    (.object [("named", .object [("left", .object [("label", .number (.natural 3))])])]) = .ok _
    from rfl))

end DynProto
