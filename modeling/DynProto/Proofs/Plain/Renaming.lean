import DynProto.Proofs.Plain.Pruning
import DynProto.Registry.Ingest

/-!
# Fields by any of their names

A field may be given under any key that names it, and a value is read as the same record whichever
of them is taken. `Renamed` says that two values differ in the keys of the objects that are read as
messages only: a member may have another key for the same field, with the order of the members that
goes with the new keys, and the value of a member may be renamed in the same way. Objects that are
read as maps keep their keys.

The argument follows the reader. A member changes one slot, which depends on its key, by a value
that does not depend on the record (`exists_change`), so members for different fields may change
places (`readPair_swap`, `foldlM_perm`); and on every level the value of a field is read as the
same value under another name (`readField_renamed`, `readLevels_renamed`). So renaming changes
nothing about what is read (`decode_renamed`).
-/

namespace DynProto.Plain

open Wire (except_bind_eq_ok)

/-! ## Renaming -/

/-- Members of an object that each name a field of their own, or none. -/
def OnePerField (type : MessageType) (members : List (String × Json)) : Prop :=
  (members.filterMap fun member => type.indexOf? member.1).Nodup

mutual

/-- Two values that differ in the keys of objects that are read as messages, by what the values are
read as. -/
inductive Renamed (registry : Registry) : Form → Json → Json → Prop
  /-- Nothing is renamed. -/
  | refl (form : Form) (json : Json) : Renamed registry form json json
  /-- In a message, keys are replaced by others for the same fields, and the members are put in
  another order. -/
  | message {type : MessageType} {members renamed members' : List (String × Json)}
      (hmembers : RenamedMembers registry type members renamed)
      (hdistinct : OnePerField type members) (horder : renamed.Perm members') :
      Renamed registry (.message type) (.object members) (.object members')
  /-- In an array of messages, the items are renamed. -/
  | messages {type : MessageType} {items items' : List Json}
      (hitems : RenamedItems registry type items items') :
      Renamed registry (.messages type) (.array items) (.array items')
  /-- In an object with messages under its keys, the messages are renamed. -/
  | entries {type : MessageType} {members members' : List (String × Json)}
      (hentries : RenamedEntries registry type members members') :
      Renamed registry (.entries type) (.object members) (.object members')

/-- Members of a message of which one after the other has another key for the same field. -/
inductive RenamedMembers (registry : Registry) :
    MessageType → List (String × Json) → List (String × Json) → Prop
  /-- There are none. -/
  | nil {type : MessageType} : RenamedMembers registry type [] []
  /-- Both keys name one field; the value is renamed by what the field holds. -/
  | field {type : MessageType} {key key' : String} {field : Field} {json json' : Json}
      {members members' : List (String × Json)} (hfield : type.field? key = some field)
      (hkey : type.indexOf? key' = type.indexOf? key)
      (hvalue : Renamed registry (field.kind.form registry) json json')
      (hrest : RenamedMembers registry type members members') :
      RenamedMembers registry type ((key, json) :: members) ((key', json') :: members')
  /-- Neither key names a field. -/
  | unknown {type : MessageType} {key key' : String} {json : Json}
      {members members' : List (String × Json)} (hnone : type.indexOf? key = none)
      (hnone' : type.indexOf? key' = none)
      (hrest : RenamedMembers registry type members members') :
      RenamedMembers registry type ((key, json) :: members) ((key', json) :: members')

/-- Items of an array that are renamed one after the other. -/
inductive RenamedItems (registry : Registry) : MessageType → List Json → List Json → Prop
  /-- There are none. -/
  | nil {type : MessageType} : RenamedItems registry type [] []
  /-- An item is renamed. -/
  | cons {type : MessageType} {item item' : Json} {items items' : List Json}
      (hitem : Renamed registry (.message type) item item')
      (hrest : RenamedItems registry type items items') :
      RenamedItems registry type (item :: items) (item' :: items')

/-- Members of an object with messages under its keys, which stay as they are. -/
inductive RenamedEntries (registry : Registry) :
    MessageType → List (String × Json) → List (String × Json) → Prop
  /-- There are none. -/
  | nil {type : MessageType} : RenamedEntries registry type [] []
  /-- A message is renamed. -/
  | cons {type : MessageType} {key : String} {json json' : Json}
      {members members' : List (String × Json)}
      (hvalue : Renamed registry (.message type) json json')
      (hrest : RenamedEntries registry type members members') :
      RenamedEntries registry type ((key, json) :: members) ((key, json') :: members')

end

variable {registry : Registry} {type : MessageType}

/-- `null` stays `null`. -/
theorem Renamed.null_iff {form : Form} {json json' : Json} (h : Renamed registry form json json') :
    json = .null ↔ json' = .null := by
  cases h <;> simp

/-- Where no messages are inside, nothing is renamed. -/
theorem Renamed.eq_of_plain {json json' : Json} (h : Renamed registry .plain json json') :
    json' = json := by
  cases h
  rfl

/-- Items are renamed one by one. -/
theorem RenamedItems.forall₂ {items items' : List Json}
    (h : RenamedItems registry type items items') :
    List.Forall₂ (Renamed registry (.message type)) items items' := by
  induction items generalizing items' with
  | nil =>
    cases h
    exact .nil
  | cons item items ih =>
    cases h with
    | cons hitem hrest => exact .cons hitem (ih hrest)

/-- Messages under the keys of an object are renamed one by one. -/
theorem RenamedEntries.forall₂ {members members' : List (String × Json)}
    (h : RenamedEntries registry type members members') :
    List.Forall₂ (fun member member' => member'.1 = member.1 ∧
      Renamed registry (.message type) member.2 member'.2) members members' := by
  induction members generalizing members' with
  | nil =>
    cases h
    exact .nil
  | cons member members ih =>
    cases h with
    | cons hvalue hrest => exact .cons ⟨rfl, hvalue⟩ (ih hrest)

/-- The members are for the same fields as before. -/
theorem RenamedMembers.onePerField {members renamed : List (String × Json)}
    (h : RenamedMembers registry type members renamed) (hdistinct : OnePerField type members) :
    OnePerField type renamed := by
  have hindices : members.filterMap (fun member => type.indexOf? member.1)
      = renamed.filterMap fun member => type.indexOf? member.1 := by
    clear hdistinct
    induction members generalizing renamed with
    | nil =>
      cases h
      rfl
    | cons member members ih =>
      cases h with
      | field _ hkey _ hrest => simp only [List.filterMap_cons, hkey, ih hrest]
      | unknown hnone hnone' hrest => simp only [List.filterMap_cons, hnone, hnone', ih hrest]
  rwa [OnePerField, ← hindices]

/-! ## Members change places -/

/-- The record with a member of an object applied to it, the member as a pair. -/
def readPair (nested : Nested) (registry : Registry) (unknown : UnknownKeys) (type : MessageType)
    (record : Record) (member : String × Json) : Except CodecError Record :=
  readMember nested registry unknown type record member.1 member.2

/-- What a member does to a record: it leaves it, or puts a value into the slot that its key names,
whatever the record is. -/
theorem exists_change (nested : Nested) (registry : Registry) (unknown : UnknownKeys)
    (type : MessageType) (key : String) (json : Json) :
    ∃ change : Except CodecError (Option (Nat × Value)),
      (∀ record, readMember nested registry unknown type record key json
        = change.map fun slot => slot.elim record fun (index, v) => record.set index (some v)) ∧
      ∀ index v, change = .ok (some (index, v)) → type.indexOf? key = some index := by
  unfold readMember
  rcases hindex : type.indexOf? key with _ | index
  · cases unknown
    · exact ⟨.ok none, fun _ => rfl, fun _ _ h => by cases h⟩
    · exact ⟨.error (.json type.name (.unknownField key)), fun _ => rfl, fun _ _ h => by cases h⟩
  rcases hfield : type.fields[index]? with _ | field
  · simp only [Option.bind_some, hfield, Option.map_none]
    cases unknown
    · exact ⟨.ok none, fun _ => rfl, fun _ _ h => by cases h⟩
    · exact ⟨.error (.json type.name (.unknownField key)), fun _ => rfl, fun _ _ h => by cases h⟩
  simp only [Option.bind_some, hfield, Option.map_some]
  by_cases hnull : json = .null
  · subst hnull
    exact ⟨.ok none, fun _ => rfl, fun _ _ h => by cases h⟩
  · refine ⟨(readField nested registry type.name field json).map fun v => some (index, v),
      fun record => ?_, fun index' v h => ?_⟩
    · cases json
      case null => exact absurd rfl hnull
      all_goals
        show (readField nested registry type.name field _ >>= _) = _
        cases readField nested registry type.name field _ <;> rfl
    · obtain ⟨_, _, hslot⟩ := except_map_eq_ok.1 h
      cases hslot
      rfl

/-- Two members that are not for one field. -/
def Apart (type : MessageType) (member member' : String × Json) : Prop :=
  ∀ index, type.indexOf? member.1 = some index → type.indexOf? member'.1 ≠ some index

/-- Members that each are for a field of their own are apart. -/
theorem OnePerField.pairwise {members : List (String × Json)} (h : OnePerField type members) :
    members.Pairwise (Apart type) :=
  (List.pairwise_filterMap.1 h).imp fun h index hindex heq => h index hindex index heq rfl

/-- Two members that are apart do the same in either order. -/
theorem readPair_swap {nested : Nested} {unknown : UnknownKeys} {member member' : String × Json}
    {record last : Record} (hapart : Apart type member member')
    (h : (readPair nested registry unknown type record member >>= fun next =>
      readPair nested registry unknown type next member') = .ok last) :
    (readPair nested registry unknown type record member' >>= fun next =>
      readPair nested registry unknown type next member) = .ok last := by
  obtain ⟨change, hread, hindex⟩ :=
    exists_change nested registry unknown type member.1 member.2
  obtain ⟨change', hread', hindex'⟩ :=
    exists_change nested registry unknown type member'.1 member'.2
  simp only [readPair, hread, hread'] at h ⊢
  rcases change with error | slot
  · cases h
  rcases change' with error | slot'
  · cases h
  rw [← h]
  rcases slot with _ | ⟨index, v⟩ <;> rcases slot' with _ | ⟨index', v'⟩ <;> try rfl
  have hne : index' ≠ index := by
    rintro rfl
    exact hapart index' (hindex index' v rfl) (hindex' index' v' rfl)
  exact congrArg Except.ok (List.set_comm _ _ hne)

/-! ## Reading under other names -/

/-- The value of a field with messages is read item by item. -/
theorem readField_array {nested : Nested} {owner : String} {field : Field} {name : String}
    (hkind : field.kind = .message name true) (items : List Json) :
    readField nested registry owner field (.array items)
      = registry.codecMessageType name >>= fun child =>
          (items.mapM (nested child)).map fun records => .list (records.map .message) := by
  rw [readField, hkind]
  rfl

section

variable {nested : Nested} {owner : String}
  (hnested : ∀ type json json' record, Renamed registry (.message type) json json' →
    nested type json = .ok record → nested type json' = .ok record)

include hnested

/-- The value of a map entry is read under other names. -/
theorem readEntryValue_renamed {field : Field} {value : MapValue} {json json' : Json} {v : Value}
    (h : Renamed registry (value.form registry) json json')
    (hread : readEntryValue nested registry owner field value json = .ok v) :
    readEntryValue nested registry owner field value json' = .ok v := by
  rcases value with kind | name | name
  · rwa [h.eq_of_plain]
  · rwa [h.eq_of_plain]
  · obtain ⟨child, hchild, hread⟩ := except_bind_eq_ok.1 hread
    obtain ⟨inner, hinner, hread⟩ := except_bind_eq_ok.1 hread
    rw [MapValue.form, hchild] at h
    exact except_bind_eq_ok.2 ⟨child, hchild,
      except_bind_eq_ok.2 ⟨inner, hnested child json json' inner h hinner, hread⟩⟩

/-- The entries of a map are read under other names. -/
theorem readEntries_renamed {field : Field} {key : Scalar} {value : MapValue}
    {members members' : List (String × Json)} {entries : OrderedMap MapKey Value}
    (h : List.Forall₂ (fun member member' => member'.1 = member.1 ∧
      Renamed registry (value.form registry) member.2 member'.2) members members')
    (hread : members.foldlM (insertEntry nested registry owner field key value) []
      = .ok entries) :
    members'.foldlM (insertEntry nested registry owner field key value) [] = .ok entries := by
  have hstep : ∀ s t member member' next, s = t →
      (member'.1 = member.1 ∧ Renamed registry (value.form registry) member.2 member'.2) →
      insertEntry nested registry owner field key value s member = .ok next →
      ∃ next', insertEntry nested registry owner field key value t member' = .ok next' ∧
        next = next' := by
    rintro s _ member member' next rfl ⟨hkey, hvalue⟩ hnext
    obtain ⟨mapKey, hmapKey, hnext⟩ := except_bind_eq_ok.1 hnext
    obtain ⟨v, hv, hnext⟩ := except_bind_eq_ok.1 hnext
    refine ⟨next, except_bind_eq_ok.2 ⟨mapKey, by rwa [hkey], ?_⟩, rfl⟩
    exact except_bind_eq_ok.2 ⟨v, readEntryValue_renamed hnested hvalue hv, hnext⟩
  obtain ⟨last, hlast, rfl⟩ := foldlM_simulates hstep h rfl hread
  exact hlast

/-- The value of a field is read under other names. -/
theorem readField_renamed {field : Field} {json json' : Json} {v : Value}
    (h : Renamed registry (field.kind.form registry) json json')
    (hread : readField nested registry owner field json = .ok v) :
    readField nested registry owner field json' = .ok v := by
  rcases hkind : field.kind with ⟨kind, _ | _⟩ | ⟨name, _ | _⟩ | ⟨name, _ | _⟩ | ⟨key, value⟩
  case scalar.false | scalar.true | enum.false | enum.true =>
    rw [hkind] at h
    rwa [h.eq_of_plain]
  case message.false =>
    rw [readField, hkind] at hread ⊢
    obtain ⟨child, hchild, hread⟩ := except_bind_eq_ok.1 hread
    obtain ⟨inner, hinner, hread⟩ := except_bind_eq_ok.1 hread
    simp only [hkind, FieldKind.form, hchild] at h
    exact except_bind_eq_ok.2 ⟨child, hchild,
      except_bind_eq_ok.2 ⟨inner, hnested child json json' inner h hinner, hread⟩⟩
  case message.true =>
    simp only [hkind, FieldKind.form] at h
    rcases hchild : registry.codecMessageType name with error | child <;>
      simp only [hchild] at h
    · rwa [h.eq_of_plain]
    cases h with
    | refl => exact hread
    | messages hitems =>
      rw [readField_array hkind, hchild] at hread ⊢
      obtain ⟨records, hrecords, hread⟩ := except_map_eq_ok.1 hread
      have hitems := hitems.forall₂.imp fun item item' hitem record =>
        hnested child item item' record hitem
      exact except_map_eq_ok.2 ⟨records, mapM_simulates hitems hrecords, hread⟩
  case map =>
    rcases FieldKind.form_map registry key value with hform | ⟨child, hform⟩ <;>
      rw [hkind, hform] at h
    · rwa [h.eq_of_plain]
    cases h with
    | refl => exact hread
    | entries hentries =>
      have hvalue : value.form registry = .message child := by
        simp only [FieldKind.form] at hform
        split at hform <;> simp_all
      have hentries := hentries.forall₂
      rw [← hvalue] at hentries
      rw [readField_object hkind] at hread ⊢
      obtain ⟨entries, hentry, rfl⟩ := except_map_eq_ok.1 hread
      exact except_map_eq_ok.2 ⟨entries, readEntries_renamed hnested hentries hentry, rfl⟩

/-- A member for a field is read under another name. -/
theorem readMember_renamed {unknown : UnknownKeys} {key key' : String} {field : Field}
    {json json' : Json} {record next : Record} (hfield : type.field? key = some field)
    (hkey : type.indexOf? key' = type.indexOf? key)
    (hvalue : Renamed registry (field.kind.form registry) json json')
    (hread : readMember nested registry unknown type record key json = .ok next) :
    readMember nested registry unknown type record key' json' = .ok next := by
  obtain ⟨index, hmember⟩ := readMember_of_some registry hfield
  have hsame : readMember nested registry unknown type record key' json'
      = readMember nested registry unknown type record key json' := by
    obtain ⟨place, hplace, hat⟩ := Option.bind_eq_some_iff.1 hfield
    unfold readMember
    simp only [hkey, hplace, Option.bind_some, hat, Option.map_some]
  rw [hsame]
  by_cases hnull : json = .null
  · rwa [hvalue.null_iff.1 hnull, ← hnull]
  · rw [(hmember _ _ _).2 _ hnull] at hread
    rw [(hmember _ _ _).2 _ (hvalue.null_iff.not.1 hnull)]
    obtain ⟨v, hv, hset⟩ := except_map_eq_ok.1 hread
    exact except_map_eq_ok.2 ⟨v, readField_renamed hnested hvalue hv, hset⟩

/-- Members are read under other names, one after the other. -/
theorem readMembers_renamed {unknown : UnknownKeys} {members renamed : List (String × Json)}
    (h : RenamedMembers registry type members renamed) {record last : Record}
    (hread : members.foldlM (readPair nested registry unknown type) record = .ok last) :
    renamed.foldlM (readPair nested registry unknown type) record = .ok last := by
  induction members generalizing renamed record with
  | nil =>
    cases h
    exact hread
  | cons member members ih =>
    rw [List.foldlM_cons] at hread
    obtain ⟨next, hnext, hlast⟩ := except_bind_eq_ok.1 hread
    cases h with
    | unknown hnone hnone' hrest =>
      refine except_bind_eq_ok.2 ⟨next, ?_, ih hrest hlast⟩
      have hfield : ∀ {key}, type.indexOf? key = none → type.field? key = none := fun h => by
        rw [MessageType.field?, h, Option.bind_none]
      rw [readPair, readMember_of_none (hfield hnone)] at hnext
      rw [readPair, readMember_of_none (hfield hnone')]
      cases unknown
      · exact hnext
      · cases hnext
    | field hfield hkey hvalue hrest =>
      exact except_bind_eq_ok.2
        ⟨next, readMember_renamed hnested hfield hkey hvalue hnext, ih hrest hlast⟩

end

/-- Members that each are for a field of their own are read in any order. -/
theorem readMembers_perm {nested : Nested} {unknown : UnknownKeys}
    {members members' : List (String × Json)} (hdistinct : OnePerField type members)
    (hperm : members.Perm members') {record last : Record}
    (hread : members.foldlM (readPair nested registry unknown type) record = .ok last) :
    members'.foldlM (readPair nested registry unknown type) record = .ok last := by
  refine foldlM_perm (R := Apart type) ?_ ?_ hperm hdistinct.pairwise hread
  · exact fun h index hindex heq => h index heq hindex
  · exact fun member member' record last => readPair_swap

/-- A value is read as the same record under other names, on every level. -/
theorem readLevels_renamed {unknown : UnknownKeys} {levels : Nat} {json json' : Json}
    {record : Record} (h : Renamed registry (.message type) json json')
    (hread : readLevels registry unknown levels type json = .ok record) :
    readLevels registry unknown levels type json' = .ok record := by
  induction levels generalizing type json json' record with
  | zero => cases hread
  | succ levels ih =>
    cases h with
    | refl => exact hread
    | @message _ members renamed members' hmembers hdistinct horder =>
      have hrenamed := readMembers_renamed (fun _ _ _ _ h hread => ih h hread) hmembers hread
      exact readMembers_perm (hmembers.onePerField hdistinct) horder hrenamed

/-- A record is created from a value that is not `null` by reading it with unknown keys ignored. -/
theorem create_of_ne_null {json : Json} (h : json ≠ .null) :
    create registry type (some json) = read registry .ignore type json := by
  cases json
  case null => exact absurd rfl h
  all_goals rfl

/-- The key under which a field is given does not matter: if two values differ only in the keys of
objects that are read as messages, whose members are each for a field of their own, and every key is
replaced by one for the same field, then a record that is created or read from the one is created or
read from the other. -/
theorem decode_renamed (registry : Registry) (type : MessageType) {json json' : Json}
    (h : Renamed registry (.message type) json json') :
    (∀ record, create registry type (some json) = .ok record →
      create registry type (some json') = .ok record) ∧
    ∀ record, decode registry type json = .ok record →
      decode registry type json' = .ok record := by
  refine ⟨fun record hread => ?_, fun record hread => readLevels_renamed h hread⟩
  by_cases hnull : json = .null
  · rwa [h.null_iff.1 hnull, ← hnull]
  · rw [create_of_ne_null hnull] at hread
    rw [create_of_ne_null (h.null_iff.not.1 hnull)]
    exact readLevels_renamed h hread

/-- A file with a type of people and their acquaintances, one after another and by their roles. -/
def personFile : FileDescriptor where
  messages := [.mk "Person"
    [{ name := "full_name", number := 1, typeCode := some 9 },
      { name := "known_people", number := 2, repeated := true, typeCode := some 11,
        typeName := ".Person", jsonName := "about" },
      { name := "by_role", number := 3, repeated := true, typeCode := some 11,
        typeName := ".Person.ByRoleEntry" }]
    [.mk "ByRoleEntry" [{ name := "key", number := 1, typeCode := some 9 },
      { name := "value", number := 2, typeCode := some 11, typeName := ".Person" }] [] [] true]
    [] false]

/-- The type of people. -/
def personType : MessageType where
  name := "Person"
  fields := [⟨1, "full_name", none, .scalar .string false⟩,
    ⟨2, "known_people", some "about", .message "Person" true⟩,
    ⟨3, "by_role", none, .map .string (.message "Person")⟩]

/-- The registry with the type of people. -/
def personRegistry : Registry where
  pending := [("Person", personType)]
  mapEntries := [("Person.ByRoleEntry", ⟨.string, .message "Person"⟩)]
  listing := [⟨.root "Person", false⟩]

/-- A person by declared names. -/
def declaredPerson : Json :=
  .object [("by_role", .object [("boss", .object [("full_name", .string "c")])]),
    ("full_name", .string "a"), ("known_people", .array [.object [("full_name", .string "b")]])]

/-- The same person by other names, which are in another order. -/
def renamedPerson : Json :=
  .object [("about", .array [.object [("fullName", .string "b")]]),
    ("byRole", .object [("boss", .object [("fullName", .string "c")])]),
    ("fullName", .string "a")]

/-- The type of people comes about by taking its file, and the person is read under other names on
three levels. -/
theorem decode_renamed_person :
    Registry.addFile {} personFile = .ok personRegistry ∧
      personRegistry.messageType "Person" = .ok personType ∧
      Renamed personRegistry (.message personType) declaredPerson renamedPerson ∧
      decode personRegistry personType renamedPerson
        = .ok [some (.string "a"),
            some (.list [.message [some (.string "b"), some (.list []), some (.map [])]]),
            some (.map [(.string "boss",
              .message [some (.string "c"), some (.list []), some (.map [])])])] := by
  have hname (name : String) : Renamed personRegistry (.message personType)
      (.object [("full_name", .string name)]) (.object [("fullName", .string name)]) := by
    have hmembers : RenamedMembers personRegistry personType
        [("full_name", .string name)] [("fullName", .string name)] :=
      .field rfl rfl (.refl _ _) .nil
    exact .message hmembers (List.nodup_singleton 0) (.refl _)
  have hmembers : RenamedMembers personRegistry personType
      [("by_role", .object [("boss", .object [("full_name", .string "c")])]),
        ("full_name", .string "a"),
        ("known_people", .array [.object [("full_name", .string "b")]])]
      ([("byRole", .object [("boss", .object [("fullName", .string "c")])]),
        ("fullName", .string "a")] ++ [("about", .array [.object [("fullName", .string "b")]])]) :=
    .field rfl rfl (.entries (.cons (hname "c") .nil)) (.field rfl rfl (.refl _ _)
      (.field rfl rfl (.messages (.cons (hname "b") .nil)) .nil))
  have hrenamed : Renamed personRegistry (.message personType) declaredPerson renamedPerson :=
    .message hmembers (show List.Nodup [2, 0, 1] by decide) List.perm_append_comm
  refine ⟨rfl, rfl, hrenamed, (decode_renamed personRegistry personType hrenamed).2 _ ?_⟩
  rfl

end DynProto.Plain
