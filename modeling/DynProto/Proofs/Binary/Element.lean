import DynProto.Proofs.Binary.Piece
import DynProto.Proofs.Wire.Reading

/-!
# Single values in fields

A field holds one value, a list of values or a map to values. In all three cases a value is written
with the same content (`Element`); what differs is what is put around the content. A single value
has the key of its field in front, and is left out if it is a default (`piece_single_iff`); the
values of a list have it each, or one for all in a block (`piece_repeated_iff`); the value of a map
entry has the number 2 (`valuePiece_iff`).

What is put around a content can be told from it (`fieldBytes_inj`, `blockBytes_inj`), so the octets
of a value give the number of its field and the content. A suitable value gives the scalar kind as
well: of two kinds that store it, the contents differ in the first octet (`Scalar.eq_of_sample`).
-/

namespace DynProto

/-! ## Fields by the values they hold -/

/-- What a repeated field holds that has the values of a map. -/
def MapValue.repeatedKind : MapValue → FieldKind
  | .scalar kind => .scalar kind true
  | .enum type => .enum type true
  | .message type => .message type true

/-- The wire type of a value. -/
def MapValue.wireType : MapValue → Wire.WireType
  | .scalar kind => kind.wireType
  | .enum _ => .varint
  | .message _ => .delimited

/-- Whether several values may share one field on the wire. -/
def MapValue.isPackable : MapValue → Bool
  | .scalar kind => kind.isPackable
  | .enum _ => true
  | .message _ => false

/-- Whether a value may share one field on the wire with others. -/
def Value.isPackable : Value → Bool
  | string _ | bytes _ | message _ | list _ | map _ => false
  | _ => true

/-- A field holds a value, a list of values or a map to values. -/
theorem FieldKind.exists_mapValue (kind : FieldKind) :
    ∃ value : MapValue, kind = value.fieldKind ∨ kind = value.repeatedKind ∨
      ∃ key, kind = .map key value := by
  rcases kind with ⟨kind, _ | _⟩ | ⟨name, _ | _⟩ | ⟨name, _ | _⟩ | ⟨key, value⟩
  · exact ⟨.scalar kind, .inl rfl⟩
  · exact ⟨.scalar kind, .inr (.inl rfl)⟩
  · exact ⟨.enum name, .inl rfl⟩
  · exact ⟨.enum name, .inr (.inl rfl)⟩
  · exact ⟨.message name, .inl rfl⟩
  · exact ⟨.message name, .inr (.inl rfl)⟩
  · exact ⟨value, .inr (.inr ⟨key, rfl⟩)⟩

/-! ## A value that tells its kind -/

namespace Scalar

open Wire

/-- A value of each kind. The number is such that the kinds that store it in the same way differ in
the first octet of its content. -/
def sample : Scalar → Value
  | double => .f64 300
  | float => .f32 300
  | int64 | sint64 | sfixed64 => .i64 300
  | uint64 | fixed64 => .u64 300
  | int32 | sint32 | sfixed32 => .i32 300
  | uint32 | fixed32 => .u32 300
  | bool => .bool true
  | string => .string "a"
  | bytes => .bytes [1]

/-- The value is of its kind. -/
theorem fits_sample (kind : Scalar) : kind.sample.fits kind = true := by
  cases kind <;> rfl

/-- It is no default. -/
theorem isDefault_sample (kind : Scalar) : kind.sample.isDefault = false := by
  cases kind <;> rfl

/-- It is a key where its kind may be one. -/
theorem exists_key_sample {kind : Scalar} (h : kind.isMapKey = true) :
    ∃ key : MapKey, key.toValue = kind.sample := by
  have hkey : ∃ key, MapKey.ofValue? kind.sample = some key := by
    cases kind <;> first | exact ⟨_, rfl⟩ | cases h
  obtain ⟨key, hkey⟩ := hkey
  exact ⟨key, MapKey.toValue_of_ofValue? hkey⟩

/-- The first octet of a varint. -/
theorem head?_varint (n : Nat) :
    (varint n).head? = some (if n < 128 then n.toUInt8 else (n % 128 + 128).toUInt8) := by
  unfold varint
  split_ifs <;> rfl

/-- Octets that begin with its content tell the kind. -/
theorem eq_of_sample_append {kind kind' : Scalar} {content content' rest rest' : Bytes}
    (h : kind.content? kind.sample = some content) (h' : kind'.content? kind.sample = some content')
    (hcontents : content ++ rest = content' ++ rest') : kind = kind' := by
  have hhead := congrArg List.head? hcontents
  cases kind <;> cases kind' <;> simp only [sample, content?, reduceCtorEq] at h h'
  all_goals
    cases h
    cases h'
    first
      | rfl
      | simp only [int32Content, List.head?_append, head?_varint, littleEndian, List.head?_cons,
          Option.some_or] at hhead
        exact absurd hhead (by decide)

/-- Its content tells the kind. -/
theorem eq_of_sample {kind kind' : Scalar} {content : Bytes}
    (h : kind.content? kind.sample = some content)
    (h' : kind'.content? kind.sample = some content) : kind = kind' :=
  eq_of_sample_append h h' (show content ++ [] = content ++ [] from rfl)

end Scalar

namespace Binary

open Wire

variable {registry other : Registry} {number number' : Nat} {value value' : MapValue} {v : Value}
  {content content' bytes : Bytes}

/-! ## What is put around a content -/

/-- Octets begin with one field at most, with what is behind its key. -/
theorem fieldBytes_append_inj {wireType wireType' : WireType} {rest rest' : Bytes}
    (h : fieldBytes number wireType content ++ rest
      = fieldBytes number' wireType' content' ++ rest') :
    number = number' ∧ wireType = wireType' ∧ content ++ rest = content' ++ rest' := by
  unfold fieldBytes at h
  rw [List.append_assoc, List.append_assoc] at h
  obtain ⟨hkey, hcontent⟩ := Key.bytes_append_inj h
  cases hkey
  exact ⟨rfl, rfl, hcontent⟩

/-- A field is written as its number, its wire type and its content. -/
theorem fieldBytes_inj {wireType wireType' : WireType}
    (h : fieldBytes number wireType content = fieldBytes number' wireType' content') :
    number = number' ∧ content = content' := by
  rw [← List.append_nil (fieldBytes number _ _), ← List.append_nil (fieldBytes number' _ _)] at h
  obtain ⟨hnumber, _, hcontent⟩ := fieldBytes_append_inj h
  exact ⟨hnumber, List.append_cancel_right hcontent⟩

/-- A block is written as its number and its octets. -/
theorem blockBytes_inj (h : blockBytes number content = blockBytes number' content') :
    number = number' ∧ content = content' := by
  obtain ⟨hnumber, hblock⟩ := fieldBytes_inj h
  exact ⟨hnumber, delimited_inj hblock⟩

/-! ## Elements -/

/-- A value with its content. -/
inductive Element (registry : Registry) : MapValue → Value → Bytes → Prop
  /-- A scalar value. -/
  | scalar {kind : Scalar} {v : Value} {content : Bytes} (h : kind.content? v = some content) :
    Element registry (.scalar kind) v content
  /-- The number of an enum value. -/
  | enum {name : String} {v : Value} {n : Int32} (h : v.asEnum = .enum n) :
    Element registry (.enum name) v (Scalar.int32Content n)
  /-- A message. -/
  | message {name : String} {child : MessageType} {slots : Record} {body : Bytes}
    (hchild : registry.codecMessageType name = .ok child)
    (hbody : encode registry child slots = .ok body) :
    Element registry (.message name) (.message slots) (delimited body)

/-- The elements of a scalar kind. -/
theorem element_scalar_iff {kind : Scalar} :
    Element registry (.scalar kind) v content ↔ kind.content? v = some content := by
  constructor
  · rintro ⟨hcontent⟩
    exact hcontent
  · exact .scalar

/-- The elements of an enum. -/
theorem element_enum_iff {name : String} : Element registry (.enum name) v content ↔
    ∃ n, v.asEnum = .enum n ∧ Scalar.int32Content n = content := by
  constructor
  · rintro (_ | hn)
    exact ⟨_, hn, rfl⟩
  · rintro ⟨n, hn, rfl⟩
    exact .enum hn

/-- The elements of a message type that is found. -/
theorem element_message_iff {name : String} {child : MessageType}
    (hchild : registry.codecMessageType name = .ok child) :
    Element registry (.message name) v content ↔ ∃ body,
      (∃ slots, v = .message slots ∧ encode registry child slots = .ok body) ∧
        delimited body = content := by
  constructor
  · rintro (_ | _ | ⟨hfound, hbody⟩)
    rw [hchild] at hfound
    cases hfound
    exact ⟨_, ⟨_, rfl, hbody⟩, rfl⟩
  · rintro ⟨body, ⟨slots, rfl, hbody⟩, rfl⟩
    exact .message hchild hbody

/-- The message type of an element is found. -/
theorem Element.exists_child {name : String} (h : Element registry (.message name) v content) :
    ∃ child, registry.codecMessageType name = .ok child := by
  rcases h with _ | _ | ⟨hchild, _⟩
  exact ⟨_, hchild⟩

/-- A scalar value that is an enum number is written as a plain 32-bit integer. -/
theorem content?_of_asEnum {kind : Scalar} {n : Int32} (hfits : v.fits kind = true)
    (h : v.asEnum = .enum n) : Scalar.int32.content? v = some (Scalar.int32Content n) := by
  cases v <;> cases h
  case i32 => rfl
  case enum => cases hfits

/-- Lists are no elements. -/
theorem not_element_list {vs : List Value} : ¬ Element registry value (.list vs) content := by
  intro h
  rcases h with hcontent | hn
  · cases fits_of_content hcontent
  · cases hn

/-- Maps are no elements. -/
theorem not_element_map {entries : List (MapKey × Value)} :
    ¬ Element registry value (.map entries) content := by
  intro h
  rcases h with hcontent | hn
  · cases fits_of_content hcontent
  · cases hn

/-- Whether an element is packed can be seen from the value. -/
theorem Element.isPackable_eq (h : Element registry value v content) :
    value.isPackable = v.isPackable := by
  rcases h with @⟨kind, v, content, hcontent⟩ | @⟨name, v, n, hn⟩ | _
  case scalar =>
    have hfits := fits_of_content hcontent
    cases v <;> cases kind <;> first | rfl | cases hfits
  case enum =>
    cases v <;> cases hn <;> rfl
  case message => rfl

/-- An enum number is the default exactly if it is zero. -/
theorem isDefault_iff_of_asEnum {n : Int32} (h : v.asEnum = .enum n) :
    v.isDefault = true ↔ n = 0 := by
  cases v <;> cases h <;> simp [Value.isDefault]

/-- Zero is left out where the default is. -/
theorem ite_of_asEnum {n : Int32} (h : v.asEnum = .enum n) :
    (if n = 0 then [] else bytes) = if v.isDefault then [] else bytes := by
  simp only [isDefault_iff_of_asEnum h]

/-- A single value is written as its content with the key of the field in front; a default is left
out. -/
theorem piece_single_iff : Piece registry number value.fieldKind v bytes ↔ ∃ content,
    Element registry value v content ∧
      bytes = if v.isDefault then [] else fieldBytes number value.wireType content := by
  constructor
  · intro h
    rcases value with kind | name | name
    · rcases h with ⟨hcontent⟩
      exact ⟨_, .scalar hcontent, rfl⟩
    · rcases h with _ | _ | _ | ⟨hn⟩
      exact ⟨_, .enum hn, ite_of_asEnum hn⟩
    · rcases h with _ | _ | _ | _ | _ | ⟨hchild, hbody⟩
      exact ⟨_, .message hchild hbody, rfl⟩
  · rintro ⟨content, helement, rfl⟩
    rcases helement with hcontent | hn | ⟨hchild, hbody⟩
    · exact .scalar hcontent
    · rw [← ite_of_asEnum hn]
      exact .enum hn
    · exact .message hchild hbody

/-- Related lists are empty together. -/
theorem isEmpty_eq_of_forall₂ {α β : Type} {R : α → β → Prop} {as : List α} {bs : List β}
    (h : List.Forall₂ R as bs) : as.isEmpty = bs.isEmpty := by
  cases h <;> rfl

/-- Where elements of a list are related to images of something, the list is related to the image of
a list. -/
theorem exists_map_of_forall₂ {α β γ : Type} {R : α → γ → Prop} {f : γ → β} {as : List α}
    {bs : List β} (h : List.Forall₂ (fun a b => ∃ c, R a c ∧ f c = b) as bs) :
    ∃ cs, List.Forall₂ R as cs ∧ cs.map f = bs := by
  induction h with
  | nil => exact ⟨[], .nil, rfl⟩
  | cons hab _ ih =>
    obtain ⟨c, hc, rfl⟩ := hab
    obtain ⟨cs, hcs, rfl⟩ := ih
    exact ⟨c :: cs, .cons hc hcs, rfl⟩

/-- The values of a list are written in one block if they can be packed, and each with the key of
the field otherwise. -/
theorem piece_repeated_iff : Piece registry number value.repeatedKind v bytes ↔ ∃ vs contents,
    v = .list vs ∧ List.Forall₂ (Element registry value) vs contents ∧
      bytes = if value.isPackable then (if vs.isEmpty then [] else
          blockBytes number contents.flatten)
        else contents.flatMap (fieldBytes number value.wireType) := by
  constructor
  · intro h
    rcases value with kind | name | name
    · rcases h with _ | @⟨_, vs, contents, hpackable, hcontents⟩ |
        @⟨_, vs, contents, hpackable, hcontents⟩
      all_goals
        refine ⟨vs, contents, rfl, hcontents.imp fun _ _ => .scalar, ?_⟩
        rw [MapValue.isPackable, hpackable]
        rfl
    · rcases h with _ | _ | _ | _ | @⟨_, vs, numbers, hnumbers⟩
      refine ⟨vs, numbers.map Scalar.int32Content, rfl, List.forall₂_map_right_iff.2
        (hnumbers.imp fun _ _ => .enum), ?_⟩
      rw [← List.flatMap_def, isEmpty_eq_of_forall₂ hnumbers]
      rfl
    · rcases h with _ | _ | _ | _ | _ | _ | _ | @⟨_, child, vs, bodies, hchild, hbodies⟩
      · exact ⟨[], [], rfl, .nil, rfl⟩
      · refine ⟨vs, bodies.map delimited, rfl, List.forall₂_map_right_iff.2 (hbodies.imp ?_), ?_⟩
        · rintro _ body ⟨slots, rfl, hbody⟩
          exact .message hchild hbody
        · rw [List.flatMap_map]
          rfl
  · rintro ⟨vs, contents, rfl, helements, rfl⟩
    rcases value with kind | name | name
    · have hcontents := helements.imp fun _ _ => element_scalar_iff.1
      rcases hpackable : kind.isPackable
      · rw [MapValue.isPackable, hpackable]
        exact .unpacked hpackable hcontents
      · rw [MapValue.isPackable, hpackable]
        exact .packed hpackable hcontents
    · obtain ⟨numbers, hnumbers, rfl⟩ :=
        exists_map_of_forall₂ (helements.imp fun _ _ => element_enum_iff.1)
      rw [← List.flatMap_def, isEmpty_eq_of_forall₂ hnumbers]
      exact .enums hnumbers
    · rcases vs with _ | ⟨first, rest⟩
      · cases helements
        exact .noMessages
      · -- the first message tells that the type is found
        obtain ⟨_, _, hfirst⟩ := exists_of_forall₂ helements List.mem_cons_self
        obtain ⟨child, hchild⟩ := hfirst.exists_child
        obtain ⟨bodies, hbodies, rfl⟩ :=
          exists_map_of_forall₂ (helements.imp fun _ _ => (element_message_iff hchild).1)
        show Piece _ _ _ _ ((bodies.map delimited).flatMap (fieldBytes number .delimited))
        rw [List.flatMap_map]
        exact .messages hchild hbodies

/-- A field that is a map holds entries, each written as a block with its key and its value. -/
theorem piece_map_iff {key : Scalar} : Piece registry number (.map key value) v bytes ↔
    ∃ entries bodies, v = .map entries ∧
      List.Forall₂ (EntryPiece registry key value) entries bodies ∧
      bytes = bodies.flatMap (blockBytes number) := by
  constructor
  · rintro (_ | _ | _ | _ | _ | _ | _ | _ | hbodies)
    exact ⟨_, _, rfl, hbodies, rfl⟩
  · rintro ⟨entries, bodies, rfl, hbodies, rfl⟩
    exact .map hbodies

/-- The value of a map entry is written as its content with the key of field 2 in front. -/
theorem valuePiece_iff : ValuePiece registry value v bytes ↔ ∃ content,
    Element registry value v content ∧ bytes = fieldBytes 2 value.wireType content := by
  constructor
  · intro h
    rcases h with hcontent | hn | ⟨hchild, hbody⟩
    · exact ⟨_, .scalar hcontent, rfl⟩
    · exact ⟨_, .enum hn, rfl⟩
    · exact ⟨_, .message hchild hbody, rfl⟩
  · rintro ⟨content, helement, rfl⟩
    rcases helement with hcontent | hn | ⟨hchild, hbody⟩
    · exact .scalar hcontent
    · exact .enum hn
    · exact .message hchild hbody

end Binary

end DynProto
