import DynProto.Proofs.Registry.Drafting

/-!
# What a draft depends on and what it declares

Of the registry a file reads nothing but the map entries that its fields and the values of its own
map entries refer to by name: with the same entries under these names every registry gives the same
draft (`draftFile_congr`). The keys of map entries do not matter here, because a key is refused
whether or not its type stands for map entries. What the draft of a file holds is declared in the
file, under the names that the file declares (`within_draftFile`).
-/

namespace DynProto

open QualifiedName

/-! ## Declared names -/

/-- The full name of a declaration, and whether the declaration is one of map entries. -/
structure Declared where
  /-- The full name. -/
  name : String
  /-- Whether it is the name of a message that stands for map entries. -/
  isMapEntry : Bool
deriving DecidableEq, Repr

/-- The name of an enum in a scope, if it has one. -/
def EnumDescriptor.declared (parent : Option QualifiedName) (enum : EnumDescriptor) :
    List Declared :=
  if enum.name.isEmpty then [] else [⟨(under parent enum.name).fullName, false⟩]

mutual

/-- The names that a message in a scope declares. Nothing is declared in a message without a name,
and inside one that stands for map entries nothing but the message itself. -/
def MessageDescriptor.declared (parent : Option QualifiedName) :
    MessageDescriptor → List Declared
  | .mk symbol _ nested enums isMapEntry =>
    if symbol.isEmpty then []
    else
      let name := under parent symbol
      if isMapEntry then [⟨name.fullName, true⟩]
      else
        ⟨name.fullName, false⟩ :: (MessageDescriptor.declaredAll (some name) nested ++
          enums.flatMap (EnumDescriptor.declared (some name)))

/-- The names that messages in a scope declare. -/
def MessageDescriptor.declaredAll (parent : Option QualifiedName) :
    List MessageDescriptor → List Declared
  | [] => []
  | message :: rest => message.declared parent ++ MessageDescriptor.declaredAll parent rest

end

namespace FileDescriptor

/-- The names that a file declares. -/
def declared (file : FileDescriptor) : List Declared :=
  MessageDescriptor.declaredAll (ofDotted? file.package) file.messages ++
    file.enums.flatMap (EnumDescriptor.declared (ofDotted? file.package))

/-- The full names of all messages, enums and map entries of a file. -/
def names (file : FileDescriptor) : List String :=
  file.declared.map Declared.name

/-- The full names of the map entries of a file. -/
def mapEntryNames (file : FileDescriptor) : List String :=
  (file.declared.filter Declared.isMapEntry).map Declared.name

end FileDescriptor

/-! ## References -/

/-- The name by which a field refers to a message or to map entries, if it does. -/
def FieldDescriptor.messageName? (field : FieldDescriptor) : Option String :=
  if field.typeCode = some Registry.messageCode then
    some (Dotted.withoutLeadingDot field.typeName)
  else none

/-- The name by which the value of a map entry with such fields refers to a message, if it does. -/
def FieldDescriptor.valueName? (fields : List FieldDescriptor) : Option String :=
  (Registry.entryFieldIndex? fields "value" 2).bind fun index => (fields.getD index {}).messageName?

mutual

/-- The names by which the fields of a message, or the value of a map entry, and the fields of what
is declared inside refer to messages or to map entries. -/
def MessageDescriptor.references : MessageDescriptor → List String
  | .mk symbol fields nested _ isMapEntry =>
    if symbol.isEmpty then []
    else if isMapEntry then (FieldDescriptor.valueName? fields).toList
    else MessageDescriptor.referencesAll nested ++ fields.filterMap FieldDescriptor.messageName?

/-- The names by which the fields of messages refer to messages or to map entries. -/
def MessageDescriptor.referencesAll : List MessageDescriptor → List String
  | [] => []
  | message :: rest => message.references ++ MessageDescriptor.referencesAll rest

end

/-- The names by which the fields of a file and the values of its map entries refer to messages or
to map entries. -/
def FileDescriptor.references (file : FileDescriptor) : List String :=
  MessageDescriptor.referencesAll file.messages

namespace Registry

/-! ## A draft depends on the references alone -/

variable {mapOf? other? : String → Option MapEntry} {registry other : Registry}

/-- The kind of a field with the type number of a message: that of a map, if there are map entries
under the name that it refers to. -/
def messageKind (name : String) (repeated : Bool) : Option MapEntry → FieldKind
  | some entry => .map entry.key entry.value
  | none => .message name repeated

/-- No such field can be a key. -/
theorem entryKey?_messageKind (name : String) (repeated : Bool) (entry : Option MapEntry) :
    entryKey? (messageKind name repeated entry) = none := by
  cases entry <;> rfl

/-- A field with the type number of a message depends on the map entries under its name. -/
theorem fieldKind_of_messageCode (mapOf? : String → Option MapEntry) {declared : FieldDescriptor}
    (h : declared.typeCode = some messageCode) :
    fieldKind mapOf? declared = (referencedName declared).map fun name =>
      messageKind name declared.repeated (mapOf? name) := by
  unfold fieldKind
  rw [h]
  rcases referencedName declared with error | name
  · rfl
  · show (match mapOf? name with
      | some entry => Except.ok (FieldKind.map entry.key entry.value)
      | none => .ok (.message name declared.repeated))
        = .ok (messageKind name declared.repeated (mapOf? name))
    cases mapOf? name <;> rfl

/-- Every other field is of the same kind whatever map entries are known. -/
theorem fieldKind_of_ne_messageCode (mapOf? other? : String → Option MapEntry)
    {declared : FieldDescriptor} (h : declared.typeCode ≠ some messageCode) :
    fieldKind mapOf? declared = fieldKind other? declared := by
  unfold fieldKind
  rcases hcode : declared.typeCode with _ | code
  · rfl
  · have hmessage : ¬ code = messageCode := by
      intro heq
      exact h (by rw [hcode, heq])
    simp only [if_neg hmessage]

/-- A name that a field with the type number of a message refers to is the one that it gives. -/
theorem messageName?_of_referencedName {declared : FieldDescriptor} {name : String}
    (hcode : declared.typeCode = some messageCode) (h : referencedName declared = .ok name) :
    declared.messageName? = some name := by
  unfold FieldDescriptor.messageName?
  rw [if_pos hcode]
  unfold referencedName at h
  simp only at h
  split_ifs at h
  cases h
  rfl

/-- The kind of a field depends on the map entry under the name that it refers to. -/
theorem fieldKind_congr {declared : FieldDescriptor}
    (h : ∀ name, declared.messageName? = some name → mapOf? name = other? name) :
    fieldKind mapOf? declared = fieldKind other? declared := by
  by_cases hcode : declared.typeCode = some messageCode
  · rw [fieldKind_of_messageCode mapOf? hcode, fieldKind_of_messageCode other? hcode]
    rcases hname : referencedName declared with error | name
    · rfl
    · show Except.ok (messageKind _ _ (mapOf? name)) = Except.ok (messageKind _ _ (other? name))
      rw [h name (messageName?_of_referencedName hcode hname)]
  · exact fieldKind_of_ne_messageCode mapOf? other? hcode

/-- So does the field itself. -/
theorem field_congr {declared : FieldDescriptor}
    (h : ∀ name, declared.messageName? = some name → mapOf? name = other? name) :
    field mapOf? declared = field other? declared := by
  unfold field
  rw [fieldKind_congr h]

/-- The fields of a message depend on the map entries under the names that they refer to. -/
theorem mapM_field_congr {fields : List FieldDescriptor}
    (h : ∀ name ∈ fields.filterMap FieldDescriptor.messageName?, mapOf? name = other? name) :
    fields.mapM (field mapOf?) = fields.mapM (field other?) := by
  induction fields with
  | nil => rfl
  | cons declared rest ih =>
    have hdeclared : field mapOf? declared = field other? declared := by
      apply field_congr
      intro name hname
      exact h name (List.mem_filterMap.2 ⟨declared, List.mem_cons_self, hname⟩)
    have hrest : rest.mapM (field mapOf?) = rest.mapM (field other?) := by
      apply ih
      intro name hname
      obtain ⟨field, hfield, hname⟩ := List.mem_filterMap.1 hname
      exact h name (List.mem_filterMap.2 ⟨field, List.mem_cons_of_mem declared hfield, hname⟩)
    rw [List.mapM_cons, List.mapM_cons, hdeclared, hrest]

/-- Whatever map entries are known, a field is the same or can be no key: one that refers to a
message or to map entries never can. -/
theorem field_eq_or_entryKey?_eq_none (mapOf? other? : String → Option MapEntry)
    (declared : FieldDescriptor) : field mapOf? declared = field other? declared ∨
      ∃ a b, field mapOf? declared = .ok a ∧ field other? declared = .ok b ∧
        entryKey? a.kind = none ∧ entryKey? b.kind = none := by
  by_cases hcode : declared.typeCode = some messageCode
  · unfold field
    rw [fieldKind_of_messageCode mapOf? hcode, fieldKind_of_messageCode other? hcode]
    split
    · rcases referencedName declared with error | name
      · exact .inl rfl
      · exact .inr ⟨_, _, rfl, rfl, entryKey?_messageKind _ _ _, entryKey?_messageKind _ _ _⟩
    · exact .inl rfl
  · unfold field
    exact .inl (by rw [fieldKind_of_ne_messageCode mapOf? other? hcode])

/-- What a map field maps from and to depends on the map entry under the name that its value refers
to. -/
theorem mapEntry_congr {type : String} {fields : List FieldDescriptor}
    (h : ∀ name, FieldDescriptor.valueName? fields = some name → mapOf? name = other? name) :
    mapEntry mapOf? type fields = mapEntry other? type fields := by
  unfold mapEntry
  rcases entryFieldIndex? fields "key" 1 with _ | keyIndex
  · rfl
  rcases hvalue : entryFieldIndex? fields "value" 2 with _ | valueIndex
  · rfl
  have hvalueField : field mapOf? (fields.getD valueIndex {})
      = field other? (fields.getD valueIndex {}) := by
    apply field_congr
    intro name hname
    apply h
    unfold FieldDescriptor.valueName?
    rw [hvalue]
    exact hname
  show (if keyIndex = valueIndex then _ else _) = (if keyIndex = valueIndex then _ else _)
  split_ifs
  · rfl
  · rcases field_eq_or_entryKey?_eq_none mapOf? other? (fields.getD keyIndex {}) with
      hkeyField | ⟨a, b, ha, hb, hakey, hbkey⟩
    · rw [hkeyField, hvalueField]
    · -- both are refused as keys, so the value is not looked at
      rw [ha, hb]
      simp only [bind, Except.bind, hakey, hbkey, Option.elim_none]

/-- The map entry under a name, in the draft or in the registry, depends on the one in the
registry. -/
theorem mapShape?_congr {name : String}
    (h : registry.mapEntries.lookup name = other.mapEntries.lookup name) (draft : Draft) :
    registry.mapShape? draft name = other.mapShape? draft name := by
  unfold mapShape?
  rw [h]

mutual

/-- The draft of a message depends on the map entries under the names that are referred to. -/
theorem draftMessage_congr {draft : Draft} {parent : Option QualifiedName} :
    (message : MessageDescriptor) → (∀ name ∈ message.references,
      registry.mapEntries.lookup name = other.mapEntries.lookup name) →
      draftMessage registry draft parent message = draftMessage other draft parent message
  | .mk symbol fields nested enums isMapEntry, h => by
    rw [MessageDescriptor.references] at h
    rw [draftMessage, draftMessage]
    split_ifs at h ⊢ with hempty hmap
    · rfl
    · have hentry : mapEntry (registry.mapShape? draft) (under parent symbol).fullName fields
          = mapEntry (other.mapShape? draft) (under parent symbol).fullName fields := by
        apply mapEntry_congr
        intro name hname
        exact mapShape?_congr (h name (by simp [hname])) draft
      dsimp only
      rw [hentry]
    · rw [List.forall_mem_append] at h
      dsimp only
      rw [draftMessages_congr nested h.1]
      refine bind_congr fun inner => ?_
      rw [mapM_field_congr fun name hname => mapShape?_congr (h.2 name hname) inner]

/-- The draft of messages depends on the map entries under the names that are referred to. -/
theorem draftMessages_congr {draft : Draft} {parent : Option QualifiedName} :
    (messages : List MessageDescriptor) → (∀ name ∈ MessageDescriptor.referencesAll messages,
      registry.mapEntries.lookup name = other.mapEntries.lookup name) →
      draftMessages registry draft parent messages = draftMessages other draft parent messages
  | [], _ => by rw [draftMessages, draftMessages]
  | message :: rest, h => by
    rw [MessageDescriptor.referencesAll, List.forall_mem_append] at h
    rw [draftMessages, draftMessages, draftMessage_congr message h.1]
    exact bind_congr fun middle => draftMessages_congr rest h.2

end

/-- The draft of a file depends on the map entries under the names that the file refers to. -/
theorem draftFile_congr {file : FileDescriptor} (h : ∀ name ∈ file.references,
    registry.mapEntries.lookup name = other.mapEntries.lookup name) :
    registry.draftFile file = other.draftFile file := by
  unfold draftFile
  dsimp only
  rw [draftMessages_congr file.messages h]

end Registry

/-! ## A draft holds what is declared -/

/-- Everything in a draft goes by one of the declared names, map entries by names of such. -/
structure Draft.Within (names : List Declared) (draft : Draft) : Prop where
  /-- Message types do. -/
  messages : ∀ type ∈ draft.messages, ⟨type.name, false⟩ ∈ names
  /-- Enums do. -/
  enums : ∀ type ∈ draft.enums, ⟨type.name, false⟩ ∈ names
  /-- Map entries do. -/
  mapEntries : ∀ binding ∈ draft.mapEntries, ⟨binding.1, true⟩ ∈ names
  /-- What is listed does. -/
  listing : ∀ listed ∈ draft.listing, ⟨listed.name.fullName, false⟩ ∈ names

/-- Nothing is in the empty draft. -/
theorem Draft.within_empty (names : List Declared) : Draft.Within names {} where
  messages _ h := absurd h List.not_mem_nil
  enums _ h := absurd h List.not_mem_nil
  mapEntries _ h := absurd h List.not_mem_nil
  listing _ h := absurd h List.not_mem_nil

namespace Registry

variable {registry : Registry} {names : List Declared} {draft later : Draft}
  {parent : Option QualifiedName}

/-- An enum that is drafted is declared. -/
theorem within_draftEnum {enum : EnumDescriptor} (h : draft.Within names)
    (hdeclared : ∀ name ∈ enum.declared parent, name ∈ names) :
    (draftEnum draft parent enum).Within names := by
  unfold EnumDescriptor.declared at hdeclared
  unfold draftEnum
  split_ifs at hdeclared ⊢ with hempty
  · exact h
  · have hname := List.forall_mem_singleton.1 hdeclared
    exact ⟨h.messages, List.forall_mem_append.2 ⟨h.enums, List.forall_mem_singleton.2 hname⟩,
      h.mapEntries, List.forall_mem_append.2 ⟨h.listing, List.forall_mem_singleton.2 hname⟩⟩

/-- Enums that are drafted are declared. -/
theorem within_draftEnums {enums : List EnumDescriptor} (h : draft.Within names)
    (hdeclared : ∀ name ∈ enums.flatMap (EnumDescriptor.declared parent), name ∈ names) :
    (draftEnums draft parent enums).Within names := by
  unfold draftEnums
  induction enums generalizing draft with
  | nil => exact h
  | cons enum rest ih =>
    rw [List.flatMap_cons, List.forall_mem_append] at hdeclared
    exact ih (within_draftEnum h hdeclared.1) hdeclared.2

mutual

/-- A message that is drafted is declared, and so is all that is drafted inside it. -/
theorem within_draftMessage {draft later : Draft} {parent : Option QualifiedName} :
    (message : MessageDescriptor) → draft.Within names →
      (∀ name ∈ message.declared parent, name ∈ names) →
      draftMessage registry draft parent message = .ok later → later.Within names
  | .mk symbol fields nested enums isMapEntry, hdraft, hdeclared, h => by
    rw [MessageDescriptor.declared] at hdeclared
    rw [draftMessage] at h
    split_ifs at h hdeclared with hempty hmap
    · cases h
      exact hdraft
    · obtain ⟨entry, _, h⟩ := Wire.except_bind_eq_ok.1 h
      cases h
      have hname := List.forall_mem_singleton.1 hdeclared
      exact ⟨hdraft.messages, hdraft.enums, List.forall_mem_cons.2 ⟨hname, hdraft.mapEntries⟩,
        hdraft.listing⟩
    · obtain ⟨inner, hinner, h⟩ := Wire.except_bind_eq_ok.1 h
      obtain ⟨fields, _, h⟩ := Wire.except_bind_eq_ok.1 h
      cases h
      obtain ⟨hname, hdeclared⟩ := List.forall_mem_cons.1 hdeclared
      rw [List.forall_mem_append] at hdeclared
      have hnested := within_draftMessages nested hdraft hdeclared.1 hinner
      refine within_draftEnums ?_ hdeclared.2
      exact ⟨List.forall_mem_append.2 ⟨hnested.messages, List.forall_mem_singleton.2 hname⟩,
        hnested.enums, hnested.mapEntries,
        List.forall_mem_append.2 ⟨hnested.listing, List.forall_mem_singleton.2 hname⟩⟩

/-- Messages that are drafted are declared. -/
theorem within_draftMessages {draft later : Draft} {parent : Option QualifiedName} :
    (messages : List MessageDescriptor) → draft.Within names →
      (∀ name ∈ MessageDescriptor.declaredAll parent messages, name ∈ names) →
      draftMessages registry draft parent messages = .ok later → later.Within names
  | [], hdraft, _, h => by
    rw [draftMessages] at h
    cases h
    exact hdraft
  | message :: rest, hdraft, hdeclared, h => by
    rw [MessageDescriptor.declaredAll, List.forall_mem_append] at hdeclared
    rw [draftMessages] at h
    obtain ⟨middle, hmiddle, h⟩ := Wire.except_bind_eq_ok.1 h
    have hfirst := within_draftMessage message hdraft hdeclared.1 hmiddle
    exact within_draftMessages rest hfirst hdeclared.2 h

end

/-- Everything in the draft of a file is declared there. -/
theorem within_draftFile {file : FileDescriptor} (h : registry.draftFile file = .ok draft) :
    draft.Within file.declared := by
  obtain ⟨messages, hmessages, h⟩ := Wire.except_bind_eq_ok.1 h
  cases h
  refine within_draftEnums ?_ fun name hname => List.mem_append_right _ hname
  exact within_draftMessages file.messages (Draft.within_empty _)
    (fun name hname => List.mem_append_left _ hname) hmessages

end Registry

end DynProto
