import DynProto.Message
import DynProto.Proofs.Binary.Piece

/-!
# Every way to write a message gives the same octets

A binding makes a record normal before it writes it: the slots that are missing or empty take the
defaults of their fields. Writing a record directly passes these slots over. The octets are the same
because a default, whatever the kind of its field, is written as nothing, and no type is looked up
for it (`fieldPiece_default`); so no slot is written differently (`slotPiece_normalize`), and
nothing that cannot be written becomes writable or the other way round. A record with too many slots
is refused with one error on either way.
-/

namespace DynProto

variable {registry : Registry} {type : MessageType} {record normal : Record}

/-! ## Normal records -/

namespace MessageType

/-- A record has a normal form unless it has too many slots: the values that are set, and defaults
in the other slots. -/
theorem normalize_eq_ok_iff :
    type.normalize record = .ok normal ↔ record.length ≤ type.fields.length ∧
      normal = type.fields.mapIdx fun i field => (record.value? i).or field.kind.default := by
  unfold normalize
  split_ifs with hlt
  · simp [hlt]
  · simp [Nat.not_lt.1 hlt, eq_comm]

/-- A normal record has a slot for each field. -/
theorem length_of_normalize (h : type.normalize record = .ok normal) :
    normal.length = type.fields.length := by
  obtain ⟨_, rfl⟩ := normalize_eq_ok_iff.1 h
  exact List.length_mapIdx

/-- The slots of a normal record have the values that were set, or else the defaults. -/
theorem getElem?_of_normalize (h : type.normalize record = .ok normal) (i : Nat) :
    normal[i]? = (type.fields[i]?).map fun field =>
      (record.value? i).or field.kind.default := by
  obtain ⟨_, rfl⟩ := normalize_eq_ok_iff.1 h
  exact List.getElem?_mapIdx

/-- The value of a field in a normal record. -/
theorem value?_of_normalize (h : type.normalize record = .ok normal) {i : Nat} {field : Field}
    (hfield : type.fields[i]? = some field) :
    normal.value? i = (record.value? i).or field.kind.default := by
  rw [Record.value?, getElem?_of_normalize h, hfield]
  rfl

/-- A normal record is its own normal form. -/
theorem normalize_of_normalize (h : type.normalize record = .ok normal) :
    type.normalize normal = .ok normal := by
  refine normalize_eq_ok_iff.2 ⟨(length_of_normalize h).le, ?_⟩
  refine List.ext_getElem? fun i => ?_
  rw [List.getElem?_mapIdx, getElem?_of_normalize h]
  rcases hfield : type.fields[i]? with _ | field
  · rfl
  · rw [Option.map_some, Option.map_some, value?_of_normalize h hfield, Option.or_assoc,
      Option.or_self]

end MessageType

/-! ## Defaults are written as nothing -/

namespace Binary

/-- The default of a field is written, as nothing, and whatever the registry has. -/
theorem fieldPiece_default {owner : String} {field : Field} {v : Value}
    (h : field.kind.default = some v) : fieldPiece registry owner field v = .ok [] := by
  obtain ⟨bytes, hpiece⟩ := exists_piece field.number (FieldKind.suits_default h)
    fun name slots child hholds _ =>
      absurd hholds (FieldKind.not_holds_default h)
  obtain rfl := hpiece.eq_nil_of_default h
  exact fieldPiece_of_piece hpiece

/-- Each place of a normal record is written as it was before. -/
theorem slotPiece_normalize (h : type.normalize record = .ok normal) :
    slotPiece registry type normal = slotPiece registry type record := by
  funext i
  unfold slotPiece
  rcases hfield : type.fields[i]? with _ | field
  · rfl
  · show (Option.map _ _).getD _ = (Option.map _ _).getD _
    rw [MessageType.value?_of_normalize h hfield]
    rcases record.value? i with _ | v
    · rcases hdefault : field.kind.default with _ | v
      · rfl
      · exact fieldPiece_default hdefault
    · rfl

/-- A normal record is written as the record was, and an error remains the same error. -/
theorem encode_normalize (h : type.normalize record = .ok normal) :
    encode registry type normal = encode registry type record := by
  rw [encode_eq_sequence (MessageType.length_of_normalize h).le,
    encode_eq_sequence (MessageType.normalize_eq_ok_iff.1 h).1, slotPiece_normalize h]

/-- Making a record normal before it is written changes nothing, also where there is no normal
form. -/
theorem normalize_bind_encode (registry : Registry) (type : MessageType) (record : Record) :
    (type.normalize record >>= encode registry type) = encode registry type record := by
  rcases hnormal : type.normalize record with error | normal
  · rcases Nat.lt_or_ge type.fields.length record.length with hlt | hle
    · rw [encode_of_lt hlt, ← hnormal, MessageType.normalize, if_pos hlt]
      rfl
    · rw [MessageType.normalize, if_neg (Nat.not_lt.2 hle)] at hnormal
      cases hnormal
  · exact encode_normalize hnormal

end Binary

/-! ## The ways to write -/

/-- A binding writes a record as its type does, a message of its own as the message is written by
itself, and values as the message that is created from them; where one way fails, so does the other,
with one error. A normal form is its own normal form and is written as the record that it comes
from. -/
theorem Binding.encode_agrees (binding : Binding) :
    (∀ record, binding.encode (.record record)
      = Binary.encode binding.registry binding.type record) ∧
    (∀ record, binding.encode (.message (binding.message record))
      = (binding.message record).encode) ∧
    (∀ record, (binding.type.normalize record >>= binding.type.normalize)
      = binding.type.normalize record) ∧
    (∀ record, (binding.type.normalize record >>= Binary.encode binding.registry binding.type)
      = Binary.encode binding.registry binding.type record) ∧
    ∀ json, binding.encode (.values json) = (binding.create (some json) >>= Message.encode) := by
  have hwrite := Binary.normalize_bind_encode binding.registry binding.type
  refine ⟨hwrite, fun record => ?_, fun record => ?_, hwrite, fun json => ?_⟩
  · have hown : binding.recordOf (.message (binding.message record))
        = binding.type.normalize record := if_pos rfl
    rw [Binding.encode, hown]
    exact hwrite record
  · rcases hnormal : binding.type.normalize record with error | normal
    · rfl
    · exact MessageType.normalize_of_normalize hnormal
  · rw [Binding.encode, Binding.create, Binding.recordOf]
    rcases Plain.create binding.registry binding.type (some json) with error | record <;> rfl

end DynProto
