import DynProto.Proofs.Plain.WellFormed
import DynProto.Proofs.Registry.Reachable

/-!
# Keys that name no field

To ignore the keys that name no field is to read strictly what is left when they are removed.
`prune` removes them from every object that is read as a message: the outermost one, and those
inside, which are reached through keys that name fields. Level by level, a reader that ignores
unknown keys and one that refuses them do the same to what is pruned (`readLevels_prune`): the keys
that are removed are passed over by the first, and all others lead both to the same field, where
they find the same values or the same first fault. What is read strictly has nothing to remove
(`prune_of_readLevels`). So the two modes differ by the pruning only (`decode_prune`).
-/

namespace DynProto

/-- The registry with another treatment of the keys of JSON objects that name no field. -/
def Registry.withIgnoring (registry : Registry) (ignore : Bool) : Registry :=
  { registry with options := { registry.options with ignoreUnknownJsonFields := ignore } }

/-! ## Pruning -/

/-- What a JSON value is read as, as far as messages may be inside. -/
inductive Form where
  /-- There are no messages inside. -/
  | plain
  /-- A message of a type. -/
  | message (type : MessageType)
  /-- An array of messages of a type. -/
  | messages (type : MessageType)
  /-- An object with messages of a type under its keys, whatever the keys are. -/
  | entries (type : MessageType)

/-- What the value of an entry of a map field is read as. A type that is not found is not read. -/
def MapValue.form (registry : Registry) : MapValue → Form
  | .scalar _ | .enum _ => .plain
  | .message name =>
    match registry.codecMessageType name with
    | .ok child => .message child
    | .error _ => .plain

/-- What the value of a field is read as. A type that is not found is not read. -/
def FieldKind.form (registry : Registry) : FieldKind → Form
  | .scalar _ _ | .enum _ _ => .plain
  | .message name repeated =>
    match registry.codecMessageType name, repeated with
    | .ok child, false => .message child
    | .ok child, true => .messages child
    | .error _, _ => .plain
  | .map _ value =>
    match value.form registry with
    | .message child => .entries child
    | _ => .plain

/-- The value of a map field is read as an object with messages or has none inside. -/
theorem FieldKind.form_map (registry : Registry) (key : Scalar) (value : MapValue) :
    (FieldKind.map key value).form registry = .plain ∨
      ∃ child, (FieldKind.map key value).form registry = .entries child := by
  simp only [FieldKind.form]
  split
  · exact .inr ⟨_, rfl⟩
  · exact .inl rfl

namespace Plain

open Wire (except_bind_eq_ok)

mutual

/-- A value without the keys that name no field, by what it is read as. -/
def pruneAs (registry : Registry) : Form → Json → Json
  | .message type, .object members => .object (pruneMembers registry type members)
  | .messages type, .array items => .array (pruneItems registry type items)
  | .entries type, .object members => .object (pruneEntries registry type members)
  | _, json => json

/-- The members of a message: those whose keys name fields, the values pruned by the field. -/
def pruneMembers (registry : Registry) (type : MessageType) :
    List (String × Json) → List (String × Json)
  | [] => []
  | (key, json) :: rest =>
    match type.field? key with
    | some field =>
      (key, pruneAs registry (field.kind.form registry) json) :: pruneMembers registry type rest
    | none => pruneMembers registry type rest

/-- The items of an array of messages. -/
def pruneItems (registry : Registry) (type : MessageType) : List Json → List Json
  | [] => []
  | item :: rest => pruneAs registry (.message type) item :: pruneItems registry type rest

/-- The members of an object with messages under its keys. -/
def pruneEntries (registry : Registry) (type : MessageType) :
    List (String × Json) → List (String × Json)
  | [] => []
  | (key, json) :: rest =>
    (key, pruneAs registry (.message type) json) :: pruneEntries registry type rest

end

/-- A value that is read as a message of a type, without the keys that name no field. -/
def prune (registry : Registry) (type : MessageType) (json : Json) : Json :=
  pruneAs registry (.message type) json

variable {registry : Registry} {type : MessageType}

/-- Items are pruned one by one. -/
theorem pruneItems_eq_map (registry : Registry) (type : MessageType) (items : List Json) :
    pruneItems registry type items = items.map (prune registry type) := by
  induction items with
  | nil => rfl
  | cons item items ih => rw [pruneItems, ih, List.map_cons, prune]

/-- So are the messages under the keys of an object. -/
theorem pruneEntries_eq_map (registry : Registry) (type : MessageType)
    (members : List (String × Json)) :
    pruneEntries registry type members
      = members.map fun member => (member.1, prune registry type member.2) := by
  induction members with
  | nil => rfl
  | cons member members ih => rw [pruneEntries, ih, List.map_cons, prune]

/-- A member whose key names no field is removed. -/
theorem pruneMembers_of_none {key : String} {json : Json} {members : List (String × Json)}
    (h : type.field? key = none) :
    pruneMembers registry type ((key, json) :: members) = pruneMembers registry type members := by
  rw [pruneMembers, h]

/-- A member whose key names a field stays. -/
theorem pruneMembers_of_some {key : String} {field : Field} {json : Json}
    {members : List (String × Json)} (h : type.field? key = some field) :
    pruneMembers registry type ((key, json) :: members)
      = (key, pruneAs registry (field.kind.form registry) json)
          :: pruneMembers registry type members := by
  rw [pruneMembers, h]

/-- Where no messages are inside, nothing is removed. -/
theorem pruneAs_plain (registry : Registry) (json : Json) :
    pruneAs registry .plain json = json := by
  cases json <;> rfl

/-- Nothing that is there becomes `null`. -/
theorem pruneAs_eq_null {form : Form} {json : Json} :
    pruneAs registry form json = .null ↔ json = .null := by
  cases form <;> cases json <;> simp [pruneAs]

/-- The values under the keys of a map field are pruned one by one. -/
theorem pruneAs_map (registry : Registry) (key : Scalar) (value : MapValue)
    (members : List (String × Json)) :
    pruneAs registry ((FieldKind.map key value).form registry) (.object members)
      = .object (members.map fun member =>
          (member.1, pruneAs registry (value.form registry) member.2)) := by
  have hplain : members.map (fun member => (member.1, pruneAs registry .plain member.2))
      = members := by
    simp only [pruneAs_plain, Prod.mk.eta, List.map_id']
  rcases value with kind | name | name
  · exact congrArg Json.object hplain.symm
  · exact congrArg Json.object hplain.symm
  · simp only [FieldKind.form, MapValue.form]
    rcases registry.codecMessageType name with error | child
    · exact congrArg Json.object hplain.symm
    · exact congrArg Json.object (pruneEntries_eq_map registry child members)

/-! ## Reading what is pruned -/

/-- A key that names no field is passed over or refused. -/
theorem readMember_of_none {nested : Nested} {unknown : UnknownKeys} {record : Record}
    {key : String} {json : Json} (h : type.field? key = none) :
    readMember nested registry unknown type record key json
      = if unknown = .ignore then .ok record
        else .error (.json type.name (.unknownField key)) := by
  unfold readMember
  rcases hindex : type.indexOf? key with _ | index
  · cases unknown <;> rfl
  · rw [MessageType.field?, hindex, Option.bind_some] at h
    simp only [Option.bind_some, h]
    cases unknown <;> rfl

/-- A key that names a field leads to the slot of the field; `null` leaves the slot, and another
value is put there. -/
theorem readMember_of_indexOf? {nested : Nested} {registry : Registry} {unknown : UnknownKeys}
    {key : String} {index : Nat} {field : Field} (hkey : type.indexOf? key = some index)
    (hfield : type.fields[index]? = some field) (record : Record) :
    readMember nested registry unknown type record key .null = .ok record ∧
      ∀ json, json ≠ .null → readMember nested registry unknown type record key json
        = (readField nested registry type.name field json).map fun v =>
            record.set index (some v) := by
  unfold readMember
  simp only [hkey, Option.bind_some, hfield, Option.map_some, true_and]
  intro json hnull
  cases json
  case null => exact absurd rfl hnull
  all_goals
    show (readField nested registry type.name field _ >>= _) = Except.map _ _
    cases readField nested registry type.name field _ <;> rfl

/-- A key that names a field leads to one slot, whoever reads; `null` leaves the slot, and another
value is put there. -/
theorem readMember_of_some (registry : Registry) {key : String} {field : Field}
    (h : type.field? key = some field) :
    ∃ index, ∀ nested unknown record,
      readMember nested registry unknown type record key .null = .ok record ∧
      ∀ json, json ≠ .null → readMember nested registry unknown type record key json
        = (readField nested registry type.name field json).map fun v =>
            record.set index (some v) := by
  rcases hindex : type.indexOf? key with _ | index
  · rw [MessageType.field?, hindex] at h
    cases h
  · rw [MessageType.field?, hindex, Option.bind_some] at h
    exact ⟨index, fun nested unknown record => readMember_of_indexOf? hindex h record⟩

section

variable {nested nested' : Nested} {owner : String} {field : Field}
  (hnested : ∀ type json, nested type (prune registry type json) = nested' type json)

include hnested

/-- The value of a map entry is read from what is pruned. -/
theorem readEntryValue_prune (value : MapValue) (json : Json) :
    readEntryValue nested registry owner field value
        (pruneAs registry (value.form registry) json)
      = readEntryValue nested' registry owner field value json := by
  rcases value with kind | name | name
  · rw [MapValue.form, pruneAs_plain]
    rfl
  · rw [MapValue.form, pruneAs_plain]
    rfl
  · rw [readEntryValue, readEntryValue, MapValue.form]
    rcases registry.codecMessageType name with error | child
    · rfl
    · show (nested child (prune registry child json) >>= _) = _
      rw [hnested]
      rfl

/-- The value of a field is read from what is pruned. -/
theorem readField_prune (field : Field) (json : Json) :
    readField nested registry owner field (pruneAs registry (field.kind.form registry) json)
      = readField nested' registry owner field json := by
  rcases hkind : field.kind with ⟨kind, _ | _⟩ | ⟨name, _ | _⟩ | ⟨name, _ | _⟩ | ⟨key, value⟩
  case scalar.false | scalar.true | enum.false | enum.true =>
    rw [FieldKind.form, pruneAs_plain, readField, readField, hkind]
  case message.false =>
    rw [readField, readField, hkind]
    simp only [FieldKind.form]
    rcases registry.codecMessageType name with error | child
    · rfl
    · show (nested child (prune registry child json) >>= _) = _
      rw [hnested]
      rfl
  case message.true =>
    rw [readField, readField, hkind]
    simp only [FieldKind.form]
    rcases registry.codecMessageType name with error | child
    · rfl
    · cases json
      case array items =>
        have hitems : (pruneItems registry child items).mapM (nested child)
            = items.mapM (nested' child) := by
          rw [pruneItems_eq_map, List.mapM_map]
          exact congrArg (List.mapM · items) (funext (hnested child))
        show ((pruneItems registry child items).mapM (nested child) >>= _) = _
        rw [hitems]
        rfl
      all_goals rfl
  case map =>
    cases json
    case object members =>
      rw [pruneAs_map, readField_object hkind, readField_object hkind, List.foldlM_map]
      refine congrArg (Except.map Value.map) (congrArg (List.foldlM · [] members) ?_)
      funext entries member
      unfold insertEntry
      rw [readEntryValue_prune hnested]
    all_goals
      rcases FieldKind.form_map registry key value with hform | ⟨child, hform⟩ <;>
        rw [hform, readField, readField, hkind] <;> rfl

/-- The members whose keys name fields are read from what is pruned; a reader that ignores the other
members gives the same as one that refuses them and does not find them. -/
theorem readMembers_prune (members : List (String × Json)) (record : Record) :
    (pruneMembers registry type members).foldlM
        (fun record (key, json) => readMember nested registry .refuse type record key json) record
      = members.foldlM
          (fun record (key, json) => readMember nested' registry .ignore type record key json)
          record := by
  induction members generalizing record with
  | nil => rfl
  | cons member members ih =>
    obtain ⟨key, json⟩ := member
    rcases hfield : type.field? key with _ | field
    · rw [pruneMembers_of_none hfield, List.foldlM_cons]
      simp only [readMember_of_none hfield, if_true]
      exact ih record
    · obtain ⟨index, hread⟩ := readMember_of_some registry hfield
      rw [pruneMembers_of_some hfield, List.foldlM_cons, List.foldlM_cons]
      by_cases hnull : json = .null
      · subst hnull
        simp only [(hread _ _ _).1, pruneAs_eq_null.2]
        exact ih record
      · simp only [(hread _ _ _).2 _ hnull, (hread _ _ _).2 _ (pruneAs_eq_null.not.2 hnull),
          readField_prune hnested]
        rcases readField nested' registry type.name field json with error | v
        · rfl
        · exact ih (record.set index (some v))

end

/-- Reading strictly what is pruned is reading without regard to unknown keys, on every level. -/
theorem readLevels_prune (registry : Registry) (levels : Nat) (type : MessageType) (json : Json) :
    readLevels registry .refuse levels type (prune registry type json)
      = readLevels registry .ignore levels type json := by
  induction levels generalizing type json with
  | zero => rfl
  | succ levels ih =>
    cases json
    case object members => exact readMembers_prune ih members type.defaultRecord
    all_goals rfl

/-! ## What is read strictly -/

section

variable {nested : Nested} {owner : String} {field : Field}
  (hnested : ∀ type json record, nested type json = .ok record → prune registry type json = json)

include hnested

/-- Nothing is removed from the value of a map entry that is read strictly. -/
theorem pruneAs_of_readEntryValue {value : MapValue} {json : Json} {v : Value}
    (h : readEntryValue nested registry owner field value json = .ok v) :
    pruneAs registry (value.form registry) json = json := by
  rcases value with kind | name | name
  · exact pruneAs_plain registry json
  · exact pruneAs_plain registry json
  · obtain ⟨child, hchild, h⟩ := except_bind_eq_ok.1 h
    obtain ⟨inner, hinner, _⟩ := except_bind_eq_ok.1 h
    rw [MapValue.form, hchild]
    exact hnested child json inner hinner

/-- Nothing is removed from the entries of a map that is read strictly. -/
theorem map_pruneAs_of_readEntries {key : Scalar} {value : MapValue}
    {members : List (String × Json)} {entries last : OrderedMap MapKey Value}
    (h : members.foldlM (insertEntry nested registry owner field key value) entries = .ok last) :
    members.map (fun member => (member.1, pruneAs registry (value.form registry) member.2))
      = members := by
  induction members generalizing entries with
  | nil => rfl
  | cons member members ih =>
    rw [List.foldlM_cons] at h
    obtain ⟨next, hnext, h⟩ := except_bind_eq_ok.1 h
    obtain ⟨_, _, hnext⟩ := except_bind_eq_ok.1 hnext
    obtain ⟨v, hv, _⟩ := except_bind_eq_ok.1 hnext
    rw [List.map_cons, ih h, pruneAs_of_readEntryValue hnested hv]

/-- Nothing is removed from the value of a field that is read strictly. -/
theorem pruneAs_of_readField {json : Json} {v : Value}
    (h : readField nested registry owner field json = .ok v) :
    pruneAs registry (field.kind.form registry) json = json := by
  rcases hkind : field.kind with ⟨kind, repeated⟩ | ⟨name, repeated⟩ | ⟨name, _ | _⟩ | ⟨key, value⟩
  case scalar | enum => exact pruneAs_plain registry json
  case message.false =>
    rw [readField, hkind] at h
    obtain ⟨child, hchild, h⟩ := except_bind_eq_ok.1 h
    obtain ⟨inner, hinner, _⟩ := except_bind_eq_ok.1 h
    simp only [FieldKind.form, hchild]
    exact hnested child json inner hinner
  case message.true =>
    rw [readField, hkind] at h
    obtain ⟨child, hchild, h⟩ := except_bind_eq_ok.1 h
    obtain ⟨items, hitems, h⟩ := except_bind_eq_ok.1 h
    obtain ⟨records, hrecords, _⟩ := except_bind_eq_ok.1 h
    rw [ofField_eq_ok] at hitems
    cases json <;> cases hitems
    simp only [FieldKind.form, hchild]
    refine congrArg Json.array ((pruneItems_eq_map registry child items).trans ?_)
    refine (List.map_congr_left fun item hitem => ?_).trans (List.map_id items)
    obtain ⟨record, _, hrecord⟩ := exists_of_forall₂ (mapM_eq_ok_iff.1 hrecords) hitem
    exact hnested child item record hrecord
  case map =>
    cases json
    case object members =>
      rw [readField_object hkind] at h
      obtain ⟨entries, hentries, _⟩ := except_map_eq_ok.1 h
      rw [pruneAs_map, map_pruneAs_of_readEntries hnested hentries]
    all_goals
      rcases FieldKind.form_map registry key value with hform | ⟨child, hform⟩ <;>
        rw [hform] <;> rfl

/-- Nothing is removed from the members of an object that is read strictly. -/
theorem pruneMembers_of_readMembers {members : List (String × Json)} {record last : Record}
    (h : members.foldlM
      (fun record (key, json) => readMember nested registry .refuse type record key json) record
        = .ok last) : pruneMembers registry type members = members := by
  induction members generalizing record with
  | nil => rfl
  | cons member members ih =>
    obtain ⟨key, json⟩ := member
    rw [List.foldlM_cons] at h
    obtain ⟨next, hnext, h⟩ := except_bind_eq_ok.1 h
    replace hnext : readMember nested registry .refuse type record key json = .ok next := hnext
    rcases hfield : type.field? key with _ | field
    · rw [readMember_of_none hfield] at hnext
      cases hnext
    · rw [pruneMembers_of_some hfield, ih h]
      by_cases hnull : json = .null
      · rw [hnull, pruneAs_eq_null.2 rfl]
      · obtain ⟨index, hread⟩ := readMember_of_some registry hfield
        obtain ⟨v, hv, _⟩ := except_map_eq_ok.1 (((hread _ _ _).2 json hnull).symm.trans hnext)
        rw [pruneAs_of_readField hnested hv]

end

/-- Nothing is removed from what is read strictly. -/
theorem prune_of_readLevels {levels : Nat} {json : Json} {record : Record}
    (h : readLevels registry .refuse levels type json = .ok record) :
    prune registry type json = json := by
  induction levels generalizing type json record with
  | zero => cases h
  | succ levels ih =>
    cases json
    case object members =>
      exact congrArg Json.object
        (pruneMembers_of_readMembers (fun _ _ _ hrecord => ih hrecord) h)
    all_goals rfl

/-! ## The two modes -/

/-- What becomes of unknown keys is said to the reader, which does not ask the registry for it. -/
theorem readLevels_withIgnoring (registry : Registry) (ignore : Bool) (unknown : UnknownKeys)
    (levels : Nat) : readLevels (registry.withIgnoring ignore) unknown levels
      = readLevels registry unknown levels := by
  induction levels with
  | zero => rfl
  | succ levels ih =>
    funext type json
    show readObject _ _ _ _ _ = readObject _ _ _ _ _
    rw [ih]
    rfl

/-- A reader whose registry has unknown keys refused reads strictly. -/
theorem decode_withIgnoring_false (registry : Registry) (type : MessageType) (json : Json) :
    decode (registry.withIgnoring false) type json = read registry .refuse type json :=
  congrFun (congrFun (readLevels_withIgnoring registry false .refuse _) type) json

/-- A reader whose registry has unknown keys ignored passes over them. -/
theorem decode_withIgnoring_true (registry : Registry) (type : MessageType) (json : Json) :
    decode (registry.withIgnoring true) type json = read registry .ignore type json :=
  congrFun (congrFun (readLevels_withIgnoring registry true .ignore _) type) json

/-- Reading with unknown keys ignored, or creating a record, is reading strictly what is left when
these keys are removed, whatever the outcome. A value is read strictly exactly if it is read with
unknown keys ignored and there are no such keys to remove, and the record is the same then. -/
theorem decode_prune (registry : Registry) (type : MessageType) :
    (∀ json, json ≠ .null → create registry type (some json)
      = decode (registry.withIgnoring false) type (prune registry type json)) ∧
    (∀ json, decode (registry.withIgnoring true) type json
      = decode (registry.withIgnoring false) type (prune registry type json)) ∧
    ∀ json record, decode (registry.withIgnoring false) type json = .ok record ↔
      decode (registry.withIgnoring true) type json = .ok record ∧
        prune registry type json = json := by
  simp only [decode_withIgnoring_false, decode_withIgnoring_true]
  have hprune : ∀ json, read registry .refuse type (prune registry type json)
      = read registry .ignore type json := readLevels_prune registry _ type
  refine ⟨fun json hnull => ?_, fun json => (hprune json).symm,
    fun json record => ⟨fun h => ?_, ?_⟩⟩
  · rw [hprune]
    cases json
    case null => exact absurd rfl hnull
    all_goals rfl
  · have hjson : prune registry type json = json := prune_of_readLevels h
    rw [← hprune, hjson]
    exact ⟨h, rfl⟩
  · rintro ⟨h, hjson⟩
    rw [← hprune, hjson] at h
    exact h

/-- A tree with keys that trees do not have: at the root, in a child, and in a named child. -/
def overgrownTree : Json :=
  .object [("children", .array [.object [("label", .null), ("size", .null)]]), ("colour", .null),
    ("label", .number (.natural 7)), ("named", .object [("a", .object [("leaves", .object [])])])]

/-- The tree without these keys. -/
def prunedTree : Json :=
  .object [("children", .array [.object [("label", .null)]]), ("label", .number (.natural 7)),
    ("named", .object [("a", .object [])])]

/-- The tree is created from what is left. -/
theorem decode_prune_overgrownTree :
    prune (treeRegistry {}) treeType overgrownTree = prunedTree ∧
      create (treeRegistry {}) treeType (some overgrownTree)
        = .ok [some (.i32 7), some (.list [.message treeType.defaultRecord]),
            some (.map [(.string "a", .message treeType.defaultRecord)])] := by
  have hpruned : prune (treeRegistry {}) treeType overgrownTree = prunedTree := rfl
  refine ⟨hpruned, ?_⟩
  rw [(decode_prune (treeRegistry {}) treeType).1 overgrownTree (by simp [overgrownTree]), hpruned]
  rfl

end Plain

end DynProto
