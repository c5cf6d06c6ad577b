import DynProto.Binary.Writer
import DynProto.Proofs.Record.WellFormed
import DynProto.Proofs.Traversal

/-!
# What the fields of a message are written as

`Piece` relates the value of a field to its octets, one rule for each way in which a field is
written, and `fieldPiece_eq_ok_iff` says that the writer succeeds exactly with these octets.
`encode_eq_ok_iff` does the same for a whole message: its octets are the pieces of its fields in the
order of the field numbers.
-/

namespace DynProto.Binary

open Wire

variable {registry : Registry} {owner : String} {field : Field}

/-! ## Scalars and enums -/

/-- The content of a scalar value is what its kind gives. -/
theorem scalarContent_eq_ok_iff {kind : Scalar} {v : Value} {content : Bytes} :
    scalarContent owner field kind v = .ok content ↔ kind.content? v = some content := by
  unfold scalarContent
  cases kind.content? v <;> simp [mismatch]

/-- The number of an enum value is the one that it stands for. -/
theorem enumNumber_eq_ok_iff {v : Value} {n : Int32} :
    enumNumber owner field v = .ok n ↔ v.asEnum = .enum n := by
  cases v <;> simp [enumNumber, Value.asEnum, mismatch]

/-- What is of a kind has content. -/
theorem exists_content {kind : Scalar} {v : Value} (h : v.fits kind = true) :
    ∃ content, kind.content? v = some content := by
  rwa [← Scalar.isSome_content?, Option.isSome_iff_exists] at h

/-- What has content is of its kind. -/
theorem fits_of_content {kind : Scalar} {v : Value} {content : Bytes}
    (h : kind.content? v = some content) : v.fits kind = true := by
  rw [← Scalar.isSome_content?, h]
  rfl

/-- What has contents is of their kind. -/
theorem fits_of_contents {kind : Scalar} {vs : List Value} {contents : List Bytes}
    (h : List.Forall₂ (fun v content => kind.content? v = some content) vs contents) :
    ∀ v ∈ vs, v.fits kind = true := by
  intro v hv
  obtain ⟨content, _, hcontent⟩ := exists_of_forall₂ h hv
  exact fits_of_content hcontent

/-! ## The rules of writing -/

/-- The value of a map entry is written as field 2, whatever it is. -/
inductive ValuePiece (registry : Registry) : MapValue → Value → Bytes → Prop
  /-- A scalar value. -/
  | scalar {kind : Scalar} {v : Value} {content : Bytes} (h : kind.content? v = some content) :
    ValuePiece registry (.scalar kind) v (fieldBytes 2 kind.wireType content)
  /-- The number of an enum value. -/
  | enum {name : String} {v : Value} {n : Int32} (h : v.asEnum = .enum n) :
    ValuePiece registry (.enum name) v (fieldBytes 2 .varint (Scalar.int32Content n))
  /-- A message. -/
  | message {name : String} {child : MessageType} {slots : Record} {body : Bytes}
    (hchild : registry.codecMessageType name = .ok child)
    (hbody : encode registry child slots = .ok body) :
    ValuePiece registry (.message name) (.message slots) (blockBytes 2 body)

/-- The entry of a map is written as a message of its own, with its key as field 1. -/
inductive EntryPiece (registry : Registry) (key : Scalar) (value : MapValue) :
    MapKey × Value → Bytes → Prop
  /-- The key, then the value. -/
  | intro {k : MapKey} {v : Value} {content bytes : Bytes}
    (hkey : key.content? k.toValue = some content) (hvalue : ValuePiece registry value v bytes) :
    EntryPiece registry key value (k, v) (fieldBytes 1 key.wireType content ++ bytes)

/-- The value of a field with a number and of a kind, and its octets. -/
inductive Piece (registry : Registry) (number : Nat) : FieldKind → Value → Bytes → Prop
  /-- A scalar value; the default is left out. -/
  | scalar {kind : Scalar} {v : Value} {content : Bytes} (h : kind.content? v = some content) :
    Piece registry number (.scalar kind false) v
      (if v.isDefault then [] else fieldBytes number kind.wireType content)
  /-- Scalar values in one block; no block for no values. -/
  | packed {kind : Scalar} {vs : List Value} {contents : List Bytes}
    (hpackable : kind.isPackable = true)
    (h : List.Forall₂ (fun v content => kind.content? v = some content) vs contents) :
    Piece registry number (.scalar kind true) (.list vs)
      (if vs.isEmpty then [] else blockBytes number contents.flatten)
  /-- Scalar values of a kind that cannot be packed, one by one. -/
  | unpacked {kind : Scalar} {vs : List Value} {contents : List Bytes}
    (hpackable : kind.isPackable = false)
    (h : List.Forall₂ (fun v content => kind.content? v = some content) vs contents) :
    Piece registry number (.scalar kind true) (.list vs)
      (contents.flatMap (fieldBytes number kind.wireType))
  /-- The number of an enum value; zero is left out. -/
  | enum {name : String} {v : Value} {n : Int32} (h : v.asEnum = .enum n) :
    Piece registry number (.enum name false) v
      (if n = 0 then [] else fieldBytes number .varint (Scalar.int32Content n))
  /-- The numbers of enum values in one block; no block for no values. -/
  | enums {name : String} {vs : List Value} {numbers : List Int32}
    (h : List.Forall₂ (fun v n => v.asEnum = .enum n) vs numbers) :
    Piece registry number (.enum name true) (.list vs)
      (if numbers.isEmpty then [] else blockBytes number (numbers.flatMap Scalar.int32Content))
  /-- A message. -/
  | message {name : String} {child : MessageType} {slots : Record} {body : Bytes}
    (hchild : registry.codecMessageType name = .ok child)
    (hbody : encode registry child slots = .ok body) :
    Piece registry number (.message name false) (.message slots) (blockBytes number body)
  /-- No messages; their type is not looked up. -/
  | noMessages {name : String} : Piece registry number (.message name true) (.list []) []
  /-- Messages, one by one. -/
  | messages {name : String} {child : MessageType} {vs : List Value} {bodies : List Bytes}
    (hchild : registry.codecMessageType name = .ok child)
    (h : List.Forall₂ (fun v body => ∃ slots, v = .message slots ∧
      encode registry child slots = .ok body) vs bodies) :
    Piece registry number (.message name true) (.list vs) (bodies.flatMap (blockBytes number))
  /-- The entries of a map, one by one. -/
  | map {key : Scalar} {value : MapValue} {entries : List (MapKey × Value)} {bodies : List Bytes}
    (h : List.Forall₂ (EntryPiece registry key value) entries bodies) :
    Piece registry number (.map key value) (.map entries) (bodies.flatMap (blockBytes number))

/-! ## The writer follows the rules -/

/-- A single scalar value. -/
theorem singleScalar_eq_ok_iff {kind : Scalar} {v : Value} {bytes : Bytes} :
    singleScalar owner field kind v = .ok bytes ↔
      ∃ content, kind.content? v = some content ∧
        (if v.isDefault then [] else fieldBytes field.number kind.wireType content) = bytes := by
  unfold singleScalar
  simp only [except_bind_eq_ok, scalarContent_eq_ok_iff, Except.ok.injEq]

/-- A single enum value. -/
theorem singleEnum_eq_ok_iff {v : Value} {bytes : Bytes} :
    singleEnum owner field v = .ok bytes ↔
      ∃ n, v.asEnum = .enum n ∧
        (if n = 0 then [] else fieldBytes field.number .varint (Scalar.int32Content n))
          = bytes := by
  unfold singleEnum
  simp only [except_bind_eq_ok, enumNumber_eq_ok_iff, Except.ok.injEq]

/-- Values of a repeated enum field. -/
theorem repeatedEnum_eq_ok_iff {vs : List Value} {bytes : Bytes} :
    repeatedEnum owner field vs = .ok bytes ↔
      ∃ numbers, List.Forall₂ (fun v n => v.asEnum = .enum n) vs numbers ∧
        (if numbers.isEmpty then []
          else blockBytes field.number (numbers.flatMap Scalar.int32Content)) = bytes := by
  unfold repeatedEnum
  simp only [except_bind_eq_ok, mapM_eq_ok_iff, enumNumber_eq_ok_iff, Except.ok.injEq]

/-- Values of a repeated scalar field. -/
theorem repeatedScalar_eq_ok_iff {kind : Scalar} {vs : List Value} {bytes : Bytes} :
    repeatedScalar owner field kind vs = .ok bytes ↔
      ∃ contents, List.Forall₂ (fun v content => kind.content? v = some content) vs contents ∧
        (if vs.isEmpty then []
          else if kind.isPackable then blockBytes field.number contents.flatten
          else contents.flatMap (fieldBytes field.number kind.wireType)) = bytes := by
  unfold repeatedScalar
  simp only [except_bind_eq_ok, mapM_eq_ok_iff, scalarContent_eq_ok_iff]
  refine exists_congr fun contents => and_congr_right fun _ => ?_
  split_ifs <;> simp only [Except.ok.injEq]

/-- Messages of a repeated field. -/
theorem elementPieces_eq_ok_iff {child : MessageType} {vs : List Value} {bytes : Bytes} :
    elementPieces registry owner field child vs = .ok bytes ↔
      ∃ bodies, List.Forall₂ (fun v body => ∃ slots, v = .message slots ∧
        encode registry child slots = .ok body) vs bodies ∧
        bodies.flatMap (blockBytes field.number) = bytes := by
  induction vs generalizing bytes with
  | nil => simp [elementPieces]
  | cons v vs ih =>
    constructor
    · intro h
      cases v
      case message slots =>
        rw [elementPieces] at h
        obtain ⟨body, hbody, h⟩ := except_bind_eq_ok.1 h
        obtain ⟨more, hmore, h⟩ := except_bind_eq_ok.1 h
        obtain ⟨bodies, hbodies, rfl⟩ := ih.1 hmore
        cases h
        exact ⟨body :: bodies, .cons ⟨slots, rfl, hbody⟩ hbodies, rfl⟩
      all_goals
        simp only [elementPieces, mismatch, reduceCtorEq] at h
    · rintro ⟨_, _ | ⟨⟨slots, rfl, hbody⟩, hbodies⟩, rfl⟩
      rw [elementPieces]
      unfold encode at hbody
      rw [hbody, ih.2 ⟨_, hbodies, rfl⟩]
      rfl

/-- The value of a map entry. -/
theorem entryValuePiece_eq_ok_iff {value : MapValue} {v : Value} {bytes : Bytes} :
    entryValuePiece registry owner field value v = .ok bytes ↔
      ValuePiece registry value v bytes := by
  constructor
  · intro h
    rcases value with kind | name | name
    · simp only [entryValuePiece, except_bind_eq_ok, scalarContent_eq_ok_iff] at h
      obtain ⟨content, hcontent, h⟩ := h
      cases h
      exact .scalar hcontent
    · simp only [entryValuePiece, except_bind_eq_ok, enumNumber_eq_ok_iff] at h
      obtain ⟨n, hn, h⟩ := h
      cases h
      exact .enum hn
    · simp only [entryValuePiece, except_bind_eq_ok] at h
      obtain ⟨child, hchild, h⟩ := h
      cases v
      case message slots =>
        obtain ⟨body, hbody, h⟩ := except_bind_eq_ok.1 h
        cases h
        exact .message hchild hbody
      all_goals
        simp only [mismatch, reduceCtorEq] at h
  · intro h
    rcases h with h | h | ⟨hchild, hbody⟩
    · rw [entryValuePiece, scalarContent_eq_ok_iff.2 h]
      rfl
    · rw [entryValuePiece, enumNumber_eq_ok_iff.2 h]
      rfl
    · unfold encode at hbody
      rw [entryValuePiece, hchild]
      show (assemble _ _ _ >>= _) = _
      rw [hbody]
      rfl

/-- The entries of a map. -/
theorem entryPieces_eq_ok_iff {key : Scalar} {value : MapValue}
    {entries : List (MapKey × Value)} {bytes : Bytes} :
    entryPieces registry owner field key value entries = .ok bytes ↔
      ∃ bodies, List.Forall₂ (EntryPiece registry key value) entries bodies ∧
        bodies.flatMap (blockBytes field.number) = bytes := by
  induction entries generalizing bytes with
  | nil => simp [entryPieces]
  | cons entry entries ih =>
    obtain ⟨k, v⟩ := entry
    constructor
    · intro h
      rw [entryPieces] at h
      obtain ⟨content, hcontent, h⟩ := except_bind_eq_ok.1 h
      obtain ⟨valueBytes, hvalue, h⟩ := except_bind_eq_ok.1 h
      obtain ⟨more, hmore, h⟩ := except_bind_eq_ok.1 h
      obtain ⟨bodies, hbodies, rfl⟩ := ih.1 hmore
      cases h
      exact ⟨_ :: bodies, .cons ⟨scalarContent_eq_ok_iff.1 hcontent,
        entryValuePiece_eq_ok_iff.1 hvalue⟩ hbodies, rfl⟩
    · rintro ⟨_, _ | ⟨⟨hkey, hvalue⟩, hbodies⟩, rfl⟩
      rw [entryPieces, scalarContent_eq_ok_iff.2 hkey]
      show (entryValuePiece _ _ _ _ _ >>= _) = _
      rw [entryValuePiece_eq_ok_iff.2 hvalue]
      show (entryPieces _ _ _ _ _ _ >>= _) = _
      rw [ih.2 ⟨_, hbodies, rfl⟩]
      rfl

/-- What is written follows a rule. -/
theorem piece_of_fieldPiece {v : Value} {bytes : Bytes}
    (h : fieldPiece registry owner field v = .ok bytes) :
    Piece registry field.number field.kind v bytes := by
  rcases hkind : field.kind with ⟨kind, _ | _⟩ | ⟨name, _ | _⟩ | ⟨name, _ | _⟩ | ⟨key, value⟩ <;>
    rw [fieldPiece.eq_def, hkind] at h
  case scalar.false =>
    obtain ⟨content, hcontent, rfl⟩ := singleScalar_eq_ok_iff.1 h
    exact .scalar hcontent
  case scalar.true =>
    cases v <;> simp only [mismatch, reduceCtorEq] at h
    obtain ⟨contents, hcontents, rfl⟩ := repeatedScalar_eq_ok_iff.1 h
    rcases hpackable : kind.isPackable
    · rcases hcontents with _ | ⟨hfirst, hrest⟩
      · exact .unpacked hpackable .nil
      · exact .unpacked hpackable (.cons hfirst hrest)
    · exact .packed hpackable hcontents
  case enum.false =>
    obtain ⟨n, hn, rfl⟩ := singleEnum_eq_ok_iff.1 h
    exact .enum hn
  case enum.true =>
    cases v <;> simp only [mismatch, reduceCtorEq] at h
    obtain ⟨numbers, hnumbers, rfl⟩ := repeatedEnum_eq_ok_iff.1 h
    exact .enums hnumbers
  case message.false =>
    obtain ⟨child, hchild, h⟩ := except_bind_eq_ok.1 h
    cases v <;> simp only [mismatch, reduceCtorEq] at h
    obtain ⟨body, hbody, h⟩ := except_bind_eq_ok.1 h
    cases h
    exact .message hchild hbody
  case message.true =>
    cases v <;> simp only [mismatch, reduceCtorEq] at h
    split at h
    · rename_i vs hempty
      cases h
      rw [List.isEmpty_iff.1 hempty]
      exact .noMessages
    · obtain ⟨child, hchild, h⟩ := except_bind_eq_ok.1 h
      obtain ⟨bodies, hbodies, rfl⟩ := elementPieces_eq_ok_iff.1 h
      exact .messages hchild hbodies
  case map =>
    cases v <;> simp only [mismatch, reduceCtorEq] at h
    obtain ⟨bodies, hbodies, rfl⟩ := entryPieces_eq_ok_iff.1 h
    exact .map hbodies

/-- What follows a rule is written. -/
theorem fieldPiece_of_piece {v : Value} {bytes : Bytes}
    (h : Piece registry field.number field.kind v bytes) :
    fieldPiece registry owner field v = .ok bytes := by
  generalize hkind : field.kind = kind at h
  rcases h with hcontent | ⟨hpackable, hcontents⟩ | ⟨hpackable, hcontents⟩ | hn | hnumbers |
    ⟨hchild, hbody⟩ | _ | ⟨hchild, hbodies⟩ | hbodies <;> rw [fieldPiece.eq_def, hkind]
  · exact singleScalar_eq_ok_iff.2 ⟨_, hcontent, rfl⟩
  · exact repeatedScalar_eq_ok_iff.2 ⟨_, hcontents, by rw [if_pos hpackable]⟩
  · refine repeatedScalar_eq_ok_iff.2 ⟨_, hcontents, ?_⟩
    rw [hpackable]
    rcases hcontents with _ | _ <;> rfl
  · exact singleEnum_eq_ok_iff.2 ⟨_, hn, rfl⟩
  · exact repeatedEnum_eq_ok_iff.2 ⟨_, hnumbers, rfl⟩
  · exact except_bind_eq_ok.2 ⟨_, hchild, except_bind_eq_ok.2 ⟨_, hbody, rfl⟩⟩
  · rfl
  · show (if _ then _ else _) = _
    split_ifs with hempty
    · rw [List.isEmpty_iff.1 hempty, List.forall₂_nil_left_iff] at hbodies
      rw [hbodies]
      rfl
    · exact except_bind_eq_ok.2 ⟨_, hchild, elementPieces_eq_ok_iff.2 ⟨_, hbodies, rfl⟩⟩
  · exact entryPieces_eq_ok_iff.2 ⟨_, hbodies, rfl⟩

/-- A default is written as nothing. -/
theorem Piece.eq_nil_of_default {number : Nat} {kind : FieldKind} {v : Value} {bytes : Bytes}
    (h : Piece registry number kind v bytes) (hdefault : kind.default = some v) : bytes = [] := by
  rcases h with @⟨kind, v, content, hcontent⟩ | @⟨kind, vs, contents, _, hcontents⟩ |
    @⟨kind, vs, contents, _, hcontents⟩ | @⟨name, v, n, hn⟩ | @⟨name, vs, numbers, hnumbers⟩ | _ |
    _ | @⟨name, child, vs, bodies, _, hbodies⟩ | @⟨key, value, entries, bodies, hbodies⟩ <;>
    cases hdefault
  · rw [Value.isDefault_scalarDefault]
    rfl
  · rfl
  · cases hcontents
    rfl
  · cases hn
    rfl
  · cases hnumbers
    rfl
  · rfl
  · cases hbodies
    rfl
  · cases hbodies
    rfl

/-- The messages inside a value that is written are written themselves. -/
theorem Piece.exists_encode {number : Nat} {kind : FieldKind} {v : Value} {bytes : Bytes}
    (h : Piece registry number kind v bytes) {name : String} {slots : Record} {child : MessageType}
    (hholds : kind.Holds v name slots) (hchild : registry.codecMessageType name = .ok child) :
    ∃ body, encode registry child slots = .ok body := by
  rcases hholds with _ | hmem | hmem
  case single =>
    rcases h with _ | _ | _ | _ | _ | ⟨hchild', hbody⟩
    rw [hchild] at hchild'
    cases hchild'
    exact ⟨_, hbody⟩
  case element =>
    rcases h with _ | _ | _ | _ | _ | _ | _ | ⟨hchild', hbodies⟩
    · exact absurd hmem List.not_mem_nil
    · rw [hchild] at hchild'
      cases hchild'
      obtain ⟨body, _, _, ⟨⟩, hbody⟩ := exists_of_forall₂ hbodies hmem
      exact ⟨body, hbody⟩
  case entry =>
    rcases h with _ | _ | _ | _ | _ | _ | _ | _ | hbodies
    obtain ⟨_, _, hentry⟩ := exists_of_forall₂ hbodies hmem
    rcases hentry with ⟨_, hvalue⟩
    rcases hvalue with _ | _ | ⟨hchild', hbody⟩
    rw [hchild] at hchild'
    cases hchild'
    exact ⟨_, hbody⟩

/-! ## Messages -/

/-- The value in a slot is written as the value of the field at its place, and nothing is written
where there is none. -/
theorem getD_slotPieces (registry : Registry) (owner : String) (fields : List Field)
    (slots : Record) (i : Nat) :
    (slotPieces registry owner fields slots).getD i (.ok [])
      = ((fields[i]?).bind fun field =>
          (slots.value? i).map (fieldPiece registry owner field)).getD (.ok []) := by
  induction fields generalizing slots i with
  | nil => cases slots <;> simp [slotPieces]
  | cons field fields ih =>
    rcases slots with _ | ⟨_ | v, slots⟩
    · simp [slotPieces, Record.value?]
    · cases i with
      | zero => simp [slotPieces, Record.value?]
      | succ i => simpa [slotPieces, Record.value?] using ih slots i
    · cases i with
      | zero => simp [slotPieces, Record.value?]
      | succ i => simpa [slotPieces, Record.value?] using ih slots i

/-- What the slots of a message are written as, each at its place: what its value is written as,
and nothing where there is no value or no field. -/
structure Pieces (registry : Registry) (type : MessageType) (record : Record)
    (pieces : Nat → Bytes) : Prop where
  /-- There are no more slots than fields. -/
  length_le : record.length ≤ type.fields.length
  /-- A value is written by the rules for its field. -/
  piece : ∀ i field v, type.fields[i]? = some field → record.value? i = some v →
    Piece registry field.number field.kind v (pieces i)
  /-- Empty and missing slots are written as nothing. -/
  nil : ∀ i field, type.fields[i]? = some field → record.value? i = none → pieces i = []

/-- A place is written exactly if it has a field. -/
theorem mem_wireOrder {type : MessageType} {i : Nat} :
    i ∈ type.wireOrder ↔ ∃ field, type.fields[i]? = some field := by
  rw [type.wireOrder_perm.mem_iff, List.mem_range, ← Option.isSome_iff_exists]
  simp

/-- What a message has at a place, as it is written: nothing where there is no value or no field. -/
def slotPiece (registry : Registry) (type : MessageType) (record : Record) (i : Nat) :
    Except CodecError Bytes :=
  ((type.fields[i]?).bind fun field =>
    (record.value? i).map (fieldPiece registry type.name field)).getD (.ok [])

/-- A message that is not too long is written place by place in the order of the field numbers,
whether it can be written or not. -/
theorem encode_eq_sequence {type : MessageType} {record : Record}
    (hle : record.length ≤ type.fields.length) :
    encode registry type record
      = ((type.wireOrder.map (slotPiece registry type record)).mapM id).map List.flatten := by
  have hpieces : (fun i => (slotPieces registry type.name type.fields record).getD i (.ok []))
      = slotPiece registry type record :=
    funext fun i => getD_slotPieces registry type.name type.fields record i
  unfold encode assemble
  rw [if_neg (Nat.not_lt.2 hle), hpieces, List.mapM_map, Function.id_comp]
  cases type.wireOrder.mapM (slotPiece registry type record) <;> rfl

/-- A message with more slots than fields is not written. -/
theorem encode_of_lt {type : MessageType} {record : Record}
    (hlt : type.fields.length < record.length) :
    encode registry type record
      = .error (.encode type.name (.slotCount record.length type.fields.length)) :=
  if_pos hlt

/-- A message is written as the pieces of its slots in the order of the field numbers. -/
theorem encode_eq_ok_iff {type : MessageType} {record : Record} {bytes : Bytes} :
    encode registry type record = .ok bytes ↔
      ∃ pieces, Pieces registry type record pieces ∧
        type.wireOrder.flatMap pieces = bytes := by
  unfold encode assemble
  constructor
  · intro h
    split_ifs at h with hlt
    obtain ⟨ordered, hordered, h⟩ := except_bind_eq_ok.1 h
    cases h
    obtain ⟨pieces, rfl, hpieces⟩ := exists_map_of_mapM hordered
    refine ⟨pieces, ⟨Nat.le_of_not_lt hlt, ?_, ?_⟩, List.flatMap_def⟩
    · intro i field v hfield hv
      have hpiece := hpieces i (mem_wireOrder.2 ⟨field, hfield⟩)
      rw [getD_slotPieces, hfield, hv] at hpiece
      exact piece_of_fieldPiece hpiece
    · intro i field hfield hv
      have hpiece := hpieces i (mem_wireOrder.2 ⟨field, hfield⟩)
      rw [getD_slotPieces, hfield, hv] at hpiece
      exact (Except.ok.inj hpiece).symm
  · rintro ⟨pieces, ⟨hle, hpiece, hnil⟩, rfl⟩
    rw [if_neg (by omega)]
    refine except_bind_eq_ok.2 ⟨type.wireOrder.map pieces, ?_, by rw [List.flatMap_def]⟩
    rw [mapM_eq_ok_iff, List.forall₂_map_right_iff, List.forall₂_same]
    intro i hi
    obtain ⟨field, hfield⟩ := mem_wireOrder.1 hi
    rw [getD_slotPieces, hfield]
    rcases hv : record.value? i with _ | v
    · rw [hnil i field hfield hv]
      rfl
    · exact fieldPiece_of_piece (hpiece i field v hfield hv)

/-! ## What is written is of its type -/

/-- The value of a map entry that is written stands for a value of the right sort. -/
theorem ValuePiece.suits {value : MapValue} {v : Value} {bytes : Bytes}
    (h : ValuePiece registry value v bytes) :
    value.fieldKind.Suits registry (registry.canonicalValue value.fieldKind v) := by
  rcases h with hcontent | hn | ⟨hchild, _⟩
  · rw [MapValue.fieldKind, Registry.canonicalValue_scalar]
    exact .scalar (fits_of_content hcontent)
  · rw [MapValue.fieldKind, Registry.canonicalValue, hn]
    exact .enum
  · rw [MapValue.fieldKind, Registry.canonicalValue_message hchild]
    exact .message hchild

/-- A value that is written stands for a value of the sort that its field calls for. -/
theorem Piece.suits {number : Nat} {kind : FieldKind} {v : Value} {bytes : Bytes}
    (h : Piece registry number kind v bytes) :
    kind.Suits registry (registry.canonicalValue kind v) := by
  rcases h with hcontent | ⟨_, hcontents⟩ | ⟨_, hcontents⟩ | hn | hnumbers | ⟨hchild, _⟩ | _ |
    ⟨hchild, hbodies⟩ | hbodies
  case scalar =>
    rw [Registry.canonicalValue_scalar]
    exact .scalar (fits_of_content hcontent)
  case packed | unpacked =>
    rw [Registry.canonicalValue_scalar]
    exact .scalars (fits_of_contents hcontents)
  case enum =>
    rw [Registry.canonicalValue, hn]
    exact .enum
  case enums =>
    rw [registry.canonicalValue_enums hnumbers]
    exact .enums (by simp)
  case message =>
    rw [Registry.canonicalValue_message hchild]
    exact .message hchild
  case noMessages => exact .messages fun v hv => absurd hv List.not_mem_nil
  case messages =>
    rw [Registry.canonicalValue, Registry.canonicalElements_eq_map]
    refine .messages fun v hv => ?_
    obtain ⟨w, hw, rfl⟩ := List.mem_map.1 hv
    obtain ⟨body, _, slots, rfl, _⟩ := exists_of_forall₂ hbodies hw
    exact ⟨_, _, Registry.canonicalValue_message hchild slots, hchild⟩
  case map =>
    rw [Registry.canonicalValue, Registry.canonicalEntries_eq_map]
    refine .map (OrderedMap.ordered_ofList _) (fun entry hentry => ?_) fun entry hentry => ?_
    all_goals
      obtain ⟨⟨k, v⟩, hmem, rfl⟩ := List.mem_map.1 (OrderedMap.mem_of_mem_ofList hentry)
      obtain ⟨body, _, hbody⟩ := exists_of_forall₂ hbodies hmem
      rcases hbody with ⟨hkey, hvalue⟩
    · exact fits_of_content hkey
    · exact hvalue.suits

/-- The canonical record of a record that is written is of its type. -/
theorem shaped_canonical {type : MessageType} {record : Record} {bytes : Bytes}
    (h : encode registry type record = .ok bytes) :
    (registry.canonical type record).Shaped registry type := by
  obtain ⟨pieces, hpieces, _⟩ := encode_eq_ok_iff.1 h
  refine ⟨registry.length_canonicalSlots _ _, fun i field hfield hv => ?_,
    fun i field v hfield hv => ?_⟩
  · rw [registry.value?_canonical hfield] at hv
    rcases hvalue : record.value? i with _ | w <;> rw [hvalue] at hv
    · exact FieldKind.exists_message_of_default hv
    · cases hv
  · rw [registry.value?_canonical hfield] at hv
    rcases hvalue : record.value? i with _ | w <;> rw [hvalue] at hv
    · exact FieldKind.suits_default hv
    · cases hv
      exact (hpieces.piece i field w hfield hvalue).suits

/-! ## Well-formed records are written -/

/-- A value of the right sort is written if the messages inside are. -/
theorem exists_piece {kind : FieldKind} {v : Value} (number : Nat) (h : kind.Suits registry v)
    (hinner : ∀ name slots child, kind.Holds v name slots →
      registry.codecMessageType name = .ok child → ∃ body, encode registry child slots = .ok body) :
    ∃ bytes, Piece registry number kind v bytes := by
  rcases h with h | _ | h | h | @⟨name, vs, h⟩ | h | @⟨key, value, entries, _, hkeys, hvalues⟩
  case scalar =>
    obtain ⟨content, hcontent⟩ := exists_content h
    exact ⟨_, .scalar hcontent⟩
  case enum => exact ⟨_, .enum rfl⟩
  case message =>
    obtain ⟨body, hbody⟩ := hinner _ _ _ .single h
    exact ⟨_, .message h hbody⟩
  case scalars kind vs =>
    obtain ⟨contents, hcontents⟩ := exists_forall₂ fun v hv => exists_content (h v hv)
    rcases hpackable : kind.isPackable
    · exact ⟨_, .unpacked hpackable hcontents⟩
    · exact ⟨_, .packed hpackable hcontents⟩
  case enums =>
    have hnumbers : ∀ v ∈ vs, ∃ n, v.asEnum = .enum n := by
      intro v hv
      obtain ⟨n, rfl⟩ := h v hv
      exact ⟨n, rfl⟩
    obtain ⟨numbers, hnumbers⟩ := exists_forall₂ hnumbers
    exact ⟨_, .enums hnumbers⟩
  case messages name vs =>
    rcases vs with _ | ⟨first, rest⟩
    · exact ⟨_, .noMessages⟩
    · obtain ⟨_, child, _, hchild⟩ := h first List.mem_cons_self
      have hbodies : ∀ v ∈ first :: rest, ∃ body, ∃ slots, v = .message slots ∧
          encode registry child slots = .ok body := by
        intro v hv
        obtain ⟨slots, _, rfl, _⟩ := h v hv
        obtain ⟨body, hbody⟩ := hinner _ _ _ (.element hv) hchild
        exact ⟨body, slots, rfl, hbody⟩
      obtain ⟨bodies, hbodies⟩ := exists_forall₂ hbodies
      exact ⟨_, .messages hchild hbodies⟩
  case map =>
    have hentries : ∀ entry ∈ entries, ∃ body, EntryPiece registry key value entry body := by
      rintro ⟨k, v⟩ hentry
      obtain ⟨content, hcontent⟩ := exists_content (hkeys _ hentry)
      have hvalue := hvalues _ hentry
      rcases value with kind | name | name
      · obtain ⟨valueContent, hvalueContent⟩ := exists_content hvalue.fits
        exact ⟨_, hcontent, .scalar hvalueContent⟩
      · cases hvalue
        exact ⟨_, hcontent, .enum rfl⟩
      · rcases hvalue with _ | _ | hchild
        obtain ⟨body, hbody⟩ := hinner _ _ _ (.entry hentry) hchild
        exact ⟨_, hcontent, .message hchild hbody⟩
    obtain ⟨bodies, hbodies⟩ := exists_forall₂ hentries
    exact ⟨_, .map hbodies⟩

/-- A record that is of its type throughout is written. -/
theorem exists_encode_of_wellFormed {type : MessageType} {record : Record}
    (h : record.WellFormed registry type) : ∃ bytes, encode registry type record = .ok bytes := by
  induction h with
  | @intro type record h _ ih =>
    have hslots : ∀ i, ∃ bytes,
        (∀ field v, type.fields[i]? = some field → record.value? i = some v →
          Piece registry field.number field.kind v bytes) ∧
        (record.value? i = none → bytes = []) := by
      intro i
      rcases hv : record.value? i with _ | v
      · exact ⟨[], by simp, fun _ => rfl⟩
      · rcases hfield : type.fields[i]? with _ | field
        · exact ⟨[], by simp, by simp⟩
        · obtain ⟨bytes, hpiece⟩ := exists_piece field.number (h.suits i field v hfield hv)
            fun name slots child hholds hchild =>
              ih i field v name slots child hfield hv hholds hchild
          refine ⟨bytes, ?_, by simp⟩
          rintro _ _ ⟨⟩ ⟨⟩
          exact hpiece
    obtain ⟨pieces, hpieces⟩ := Classical.axiomOfChoice hslots
    refine ⟨_, encode_eq_ok_iff.2 ⟨pieces, ⟨Nat.le_of_eq h.length_eq, ?_, ?_⟩, rfl⟩⟩
    · exact fun i => (hpieces i).1
    · exact fun i _ _ => (hpieces i).2

end DynProto.Binary
