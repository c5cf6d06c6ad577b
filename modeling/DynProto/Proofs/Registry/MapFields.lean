import DynProto.Proofs.Record.Canonical
import DynProto.Proofs.Registry.Entities
import DynProto.Proofs.Registry.Flattening
import DynProto.Proofs.Registry.MapKeys

/-!
# Map fields are recognised

A field becomes a map field if, when its message is drafted, map entries are known under the name
that it refers to. What is known by then depends on the order of the declarations. In a file whose
names are distinct and new, and in which map entries are referred to only from the message around
them (`FileDescriptor.Orderly`), it does not matter: a field of a visible message becomes a map
field exactly if it names map entries, of the file or of the registry, and maps from and to what
these say (`mapFields_of_addFile`). Map entries are neither listed nor found as message types.

The messages inside a message are declared before it, so the entries that its fields may refer to
are known when the fields are looked at, whatever the order inside; and nobody else refers to them.
-/

namespace DynProto

open QualifiedName

/-! ## What map entries say -/

/-- The keys and the values that a message with such fields stands for: those of its key and value
fields, which are found by their names or else by their numbers and are not repeated. -/
structure FieldDescriptor.EntryKinds (fields : List FieldDescriptor) (entry : MapEntry) : Prop where
  /-- The key field is of the kind of the keys. -/
  key : ∃ i declared, Registry.entryFieldIndex? fields "key" 1 = some i ∧
    fields[i]? = some declared ∧ declared.Holds (fun _ => none) (.scalar entry.key false)
  /-- The value field is of the kind of the values: a scalar kind, or an enum or a message with the
  name of its type. -/
  value : ∃ i declared, Registry.entryFieldIndex? fields "value" 2 = some i ∧
    fields[i]? = some declared ∧ declared.Holds (fun _ => none) entry.value.fieldKind

namespace Registry

/-- The place of a key or value field is one in the list. -/
theorem getElem?_of_entryFieldIndex? {fields : List FieldDescriptor} {name : String} {number : Int}
    {i : Nat} (h : entryFieldIndex? fields name number = some i) :
    fields[i]? = some (fields.getD i {}) := by
  have hlt : i < fields.length := by
    unfold entryFieldIndex? at h
    rcases Option.or_eq_some_iff.1 h with h | ⟨_, h⟩
    · exact (List.findIdx?_eq_some_iff_getElem.1 h).1
    · exact (List.findIdx?_eq_some_iff_getElem.1 h).1
  rw [List.getElem?_eq_getElem hlt, List.getD_eq_getElem _ _ hlt]

/-- The kind of a field that can be a key is that of a single scalar. -/
theorem eq_scalar_of_entryKey? {kind : FieldKind} {key : Scalar} (h : entryKey? kind = some key) :
    kind = .scalar key false := by
  rcases kind with ⟨scalar, _ | _⟩ | _ | _ | _ <;> simp [entryKey?] at h
  rw [h.2]

/-- The kind of a field that can be a value is that of the values. -/
theorem eq_fieldKind_of_entryValue? {kind : FieldKind} {value : MapValue}
    (h : entryValue? kind = some value) : kind = value.fieldKind := by
  rcases kind with ⟨_, _ | _⟩ | ⟨_, _ | _⟩ | ⟨_, _ | _⟩ | _ <;> cases h <;> rfl

/-- Map entries that are accepted say what their fields say. -/
theorem entryKinds_of_mapEntry {known : String → Option MapEntry} {type : String}
    {fields : List FieldDescriptor} {entry : MapEntry}
    (h : mapEntry known type fields = .ok entry) : FieldDescriptor.EntryKinds fields entry := by
  unfold mapEntry at h
  obtain ⟨keyIndex, hkeyIndex, h⟩ := Wire.except_bind_eq_ok.1 h
  obtain ⟨valueIndex, hvalueIndex, h⟩ := Wire.except_bind_eq_ok.1 h
  split_ifs at h
  obtain ⟨keyField, hkeyField, h⟩ := Wire.except_bind_eq_ok.1 h
  obtain ⟨key, hkey, h⟩ := Wire.except_bind_eq_ok.1 h
  obtain ⟨valueField, hvalueField, h⟩ := Wire.except_bind_eq_ok.1 h
  obtain ⟨value, hvalue, h⟩ := Wire.except_bind_eq_ok.1 h
  cases h
  have hkeyIndex := eq_some_of_elim hkeyIndex
  have hvalueIndex := eq_some_of_elim hvalueIndex
  have hkeyKind := eq_scalar_of_entryKey? (eq_some_of_elim hkey)
  have hvalueKind := eq_fieldKind_of_entryValue? (eq_some_of_elim hvalue)
  have hkeyHolds := (gives_of_field hkeyField).kind
  have hvalueHolds := (gives_of_field hvalueField).kind
  rw [hkeyKind] at hkeyHolds
  rw [hvalueKind] at hvalueHolds
  refine ⟨⟨keyIndex, _, hkeyIndex, getElem?_of_entryFieldIndex? hkeyIndex, ?_⟩,
    ⟨valueIndex, _, hvalueIndex, getElem?_of_entryFieldIndex? hvalueIndex, ?_⟩⟩
  · exact hkeyHolds.of_ne_map nofun
  · exact hvalueHolds.of_ne_map (by cases value <;> nofun)

/-- All names that something in a registry goes by. -/
def taken (registry : Registry) : List String :=
  registry.messages.map Prod.fst ++ registry.enums.map Prod.fst ++
    registry.mapEntries.map Prod.fst ++ registry.typeNames

end Registry

/-! ## Orderly files -/

/-- A file in which everything has a name of its own, and map entries are nobody's business but that
of the message around them. -/
structure FileDescriptor.Orderly (registry : Registry) (file : FileDescriptor) : Prop where
  /-- The package is valid or empty. -/
  package : file.package = "" ∨ isPackageName file.package = true
  /-- Simple names are not empty and have no dots. -/
  symbols : ∀ entity ∈ file.entities, entity.name.ProperSymbol
  /-- No full name is declared twice. -/
  distinct : (file.entities.map fun entity => entity.name.fullName).Nodup
  /-- No full name is taken. -/
  fresh : ∀ entity ∈ file.entities, entity.name.fullName ∉ registry.taken
  /-- Where a field of a visible message refers to map entries of the file, they stand directly
  inside this message. -/
  inside : ∀ parent symbol fields nested enums,
    file.Visible parent (.mk symbol fields nested enums false) →
    ∀ declared ∈ fields, declared.typeCode = some Registry.messageCode →
    ∀ entity ∈ file.entities, entity.isMapEntry = true →
      Dotted.withoutLeadingDot declared.typeName = entity.name.fullName →
      ∃ message ∈ nested, message.isMapEntry = true ∧
        entity.name = under (some (under parent symbol)) message.name

namespace FileDescriptor

/-- A name is that of map entries, in the file or in the registry. -/
def IsMapEntryName (registry : Registry) (file : FileDescriptor) (name : String) : Prop :=
  (∃ entity ∈ file.entities, entity.isMapEntry = true ∧ entity.name.fullName = name) ∨
    ∃ entry, registry.entryNamed? name = some entry

/-- A name leads to map entries: those that a message of the file stands for, or those that the
registry knows. -/
inductive MapsTo (registry : Registry) (file : FileDescriptor) (name : String) :
    MapEntry → Prop
  /-- A message of the file stands for them. -/
  | declared {path : QualifiedName} {fields : List FieldDescriptor} {entry : MapEntry}
    (h : .mapEntry path fields ∈ file.declarations) (hname : path.fullName = name)
    (hkinds : FieldDescriptor.EntryKinds fields entry) : MapsTo registry file name entry
  /-- The registry knows them. -/
  | known {entry : MapEntry} (h : registry.entryNamed? name = some entry) :
    MapsTo registry file name entry

/-- A field is a map field as it should be. -/
structure Recognised (registry : Registry) (file : FileDescriptor) (declared : FieldDescriptor)
    (accepted : Field) : Prop where
  /-- It is the field with the declared name. -/
  name : accepted.name = declared.name
  /-- It is the field with the declared number. -/
  number : (accepted.number : Int) = declared.number
  /-- It holds a map exactly if it has the type number of messages and names map entries. -/
  isMap : (∃ key value, accepted.kind = .map key value) ↔
    declared.typeCode = some Registry.messageCode ∧
      file.IsMapEntryName registry (Dotted.withoutLeadingDot declared.typeName)
  /-- The map is from and to what the map entries say. -/
  kinds : ∀ key value, accepted.kind = .map key value →
    file.MapsTo registry (Dotted.withoutLeadingDot declared.typeName) ⟨key, value⟩
  /-- What holds no map holds what it is declared to hold. -/
  plain : (∀ key value, accepted.kind ≠ .map key value) →
    declared.Holds (fun _ => none) accepted.kind

/-- What is declared is among what the file holds. -/
theorem entity_mem {file : FileDescriptor} {declaration : Declaration}
    (h : declaration ∈ file.declarations) : declaration.entity ∈ file.entities :=
  file.sublist_entities.subset (List.mem_map_of_mem h)

/-- A field is recognised if map entries are known under its name exactly where they should be. -/
theorem recognised_of_gives {registry middle : Registry} {file : FileDescriptor}
    {declared : FieldDescriptor} {accepted : Field}
    (hgives : declared.Gives middle.entryNamed? accepted)
    (hknown : declared.typeCode = some Registry.messageCode →
      ((∃ entry, middle.entryNamed? (Dotted.withoutLeadingDot declared.typeName) = some entry) ↔
        file.IsMapEntryName registry (Dotted.withoutLeadingDot declared.typeName)) ∧
      ∀ entry, middle.entryNamed? (Dotted.withoutLeadingDot declared.typeName) = some entry →
        file.MapsTo registry (Dotted.withoutLeadingDot declared.typeName) entry) :
    file.Recognised registry declared accepted where
  name := hgives.name
  number := hgives.number
  isMap := by
    rw [hgives.kind.isMap_iff]
    exact and_congr_right fun hcode => (hknown hcode).1
  kinds key value hkind := by
    have hholds := hgives.kind
    rw [hkind] at hholds
    rcases hholds with _ | _ | _ | ⟨hcode, hentry⟩
    exact (hknown hcode).2 _ hentry
  plain hkind := hgives.kind.of_ne_map hkind

end FileDescriptor

namespace Declaration

/-- The name of a declaration is that of what is declared. -/
theorem name_entity (declaration : Declaration) : declaration.entity.name = declaration.name := by
  cases declaration <;> rfl

/-- Under a key of any sort a declaration goes by its full name. -/
theorem fullName_of_key {declaration : Declaration} {name : String}
    (h : declaration.messageKey? = some name ∨ declaration.enumKey? = some name ∨
      declaration.mapEntryKey? = some name) : declaration.name.fullName = name := by
  rcases declaration with ⟨path, _⟩ | ⟨path, _⟩ | ⟨path, _⟩ <;>
    rcases h with h | h | h <;> cases h <;> rfl

end Declaration

/-- Keys that are full names are told apart if the full names are. -/
theorem nodup_filterMap_key {declarations : List Declaration}
    {key? : Declaration → Option String}
    (hkey : ∀ declaration name, key? declaration = some name → declaration.name.fullName = name)
    (h : (declarations.map fun declaration => declaration.name.fullName).Nodup) :
    (declarations.filterMap key?).Nodup := by
  refine List.pairwise_filterMap.2 ((List.pairwise_map.1 h).imp ?_)
  intro first later hne name hname other hother heq
  apply hne
  rw [hkey first name hname, hkey later other hother, heq]

/-- Under a name that is not that of declared map entries, what was known is known. -/
theorem Registry.entryNamed?_of_declareAll {registry next : Registry}
    {declarations : List Declaration} (h : registry.declareAll declarations = .ok next)
    {name : String}
    (hname : ∀ declaration ∈ declarations, declaration.entity.isMapEntry = true →
      declaration.name.fullName ≠ name) :
    next.entryNamed? name = registry.entryNamed? name := by
  refine binds_mapEntries.lookup_of_ne (fun declaration hmem hkey => ?_) h
  refine hname declaration hmem ?_ (Declaration.fullName_of_key (.inr (.inr hkey)))
  cases declaration <;> first | rfl | cases hkey

namespace FileDescriptor.Orderly

variable {registry next : Registry} {file : FileDescriptor}

/-- What a file declares has names of its own. -/
theorem nodup_names (h : file.Orderly registry) :
    (file.declarations.map fun declaration => declaration.name.fullName).Nodup := by
  have hnames : (file.declarations.map fun declaration => declaration.name.fullName)
      = (file.declarations.map Declaration.entity).map fun entity => entity.name.fullName := by
    rw [List.map_map]
    exact List.map_congr_left fun declaration _ =>
      congrArg fullName declaration.name_entity.symm
  rw [hnames]
  exact h.distinct.sublist (file.sublist_entities.map _)

/-- Two messages or enums of the file with one full name are one. -/
theorem eq_of_fullName (h : file.Orderly registry) {a b : Entity} (ha : a ∈ file.entities)
    (hb : b ∈ file.entities) (heq : a.name.fullName = b.name.fullName) : a = b :=
  List.inj_on_of_nodup_map h.distinct ha hb heq

/-- A name of the file is proper. -/
theorem proper (h : file.Orderly registry) {entity : Entity} (hentity : entity ∈ file.entities) :
    entity.name.Proper := by
  have hpackage := proper_of_package h.package
  have hsymbols := h.symbols
  unfold FileDescriptor.entities at hsymbols hentity
  rw [List.forall_mem_append] at hsymbols
  rcases List.mem_append.1 hentity with hentity | hentity
  · exact MessageDescriptor.proper_of_mem_entitiesAll hpackage _ hsymbols.1 entity hentity
  · have hsymbol := hsymbols.2 entity hentity
    obtain ⟨enum, _, rfl⟩ := List.mem_map.1 hentity
    exact .under hpackage hsymbol

/-- Nothing but map entries is declared under the name of map entries. -/
theorem isMapEntry_of_fullName (h : file.Orderly registry) {entity : Entity}
    (hentity : entity ∈ file.entities) {declaration : Declaration}
    (hdeclaration : declaration ∈ file.declarations)
    (hname : declaration.name.fullName = entity.name.fullName) :
    declaration.entity.isMapEntry = entity.isMapEntry := by
  rw [← declaration.name_entity] at hname
  rw [h.eq_of_fullName (FileDescriptor.entity_mem hdeclaration) hentity hname]

variable {parent : Option QualifiedName} {symbol : String} {fields : List FieldDescriptor}
  {nested : List MessageDescriptor} {enums : List EnumDescriptor}

/-- The symbol of a visible message is not empty. -/
theorem symbol_ne (h : file.Orderly registry) {message : MessageDescriptor}
    (hvisible : file.Visible parent message) : message.name ≠ "" := by
  have hsymbol := (h.symbols _ hvisible.mem_entities).1
  rwa [symbol_under] at hsymbol

/-- A visible message is declared after the map entries that stand directly inside it. -/
theorem exists_before (h : file.Orderly registry)
    (hvisible : file.Visible parent (.mk symbol fields nested enums false)) :
    ∃ before after, file.declarations = before ++ .message (under parent symbol) fields :: after ∧
      ∀ message ∈ nested, message.isMapEntry = true →
        .mapEntry (under (some (under parent symbol)) message.name) message.fields ∈ before := by
  have hsymbol : symbol ≠ "" := h.symbol_ne hvisible
  obtain ⟨front, back, hfile⟩ := hvisible.infix_declarations
  rw [MessageDescriptor.declarations_mk _ hsymbol] at hfile
  have hsplit : file.declarations
      = (front ++ MessageDescriptor.declarationsAll (some (under parent symbol)) nested) ++
        .message (under parent symbol) fields ::
          (enums.flatMap (EnumDescriptor.declarations (some (under parent symbol))) ++ back) := by
    rw [← hfile]
    simp
  refine ⟨_, _, hsplit, fun message hmessage hmapEntry => ?_⟩
  have hname := h.symbol_ne (.nested hvisible hsymbol hmessage)
  apply List.mem_append_right
  apply (MessageDescriptor.infix_declarationsAll _ hmessage).subset
  obtain ⟨name, declared, inner, innerEnums, isMapEntry⟩ := message
  obtain rfl : isMapEntry = true := hmapEntry
  have hempty : ¬ name.isEmpty = true := fun hempty => hname (String.isEmpty_iff.1 hempty)
  rw [MessageDescriptor.declarations, if_neg hempty]
  exact List.mem_singleton_self _

/-- Map entries that are declared are known from then on, as their fields say. -/
theorem entryNamed?_of_mem (h : file.Orderly registry) {before after : List Declaration}
    (hfile : file.declarations = before ++ after) {middle : Registry}
    (hmiddle : registry.declareAll before = .ok middle) {path : QualifiedName}
    (hpath : .mapEntry path fields ∈ before) :
    ∃ entry, middle.entryNamed? path.fullName = some entry ∧
      FieldDescriptor.EntryKinds fields entry := by
  have hnodup : (before.filterMap Declaration.mapEntryKey?).Nodup := by
    refine nodup_filterMap_key (fun _ _ hkey => Declaration.fullName_of_key (.inr (.inr hkey))) ?_
    have hnames := h.nodup_names
    rw [hfile, List.map_append] at hnames
    exact (List.nodup_append.1 hnames).1
  obtain ⟨front, back, rfl⟩ := List.append_of_mem hpath
  obtain ⟨_, entry, _, hstands, hfound⟩ :=
    Registry.binds_mapEntries.lookup_of_lastAt (lastAt_of_nodup rfl hnodup) hmiddle
  cases hstands with
  | intro hentry => exact ⟨entry, hfound, Registry.entryKinds_of_mapEntry hentry⟩

/-- When a visible message is declared, map entries are known under a name that one of its fields
may refer to exactly if it is the name of such, and they are the ones that the name leads to. -/
theorem entryNamed?_of_visible (h : file.Orderly registry)
    (hvisible : file.Visible parent (.mk symbol fields nested enums false))
    {declared : FieldDescriptor} (hdeclared : declared ∈ fields)
    (hcode : declared.typeCode = some Registry.messageCode) {before after : List Declaration}
    (hfile : file.declarations = before ++ after)
    (hinner : ∀ message ∈ nested, message.isMapEntry = true →
      .mapEntry (under (some (under parent symbol)) message.name) message.fields ∈ before)
    {middle : Registry} (hmiddle : registry.declareAll before = .ok middle) :
    ((∃ entry, middle.entryNamed? (Dotted.withoutLeadingDot declared.typeName) = some entry) ↔
      file.IsMapEntryName registry (Dotted.withoutLeadingDot declared.typeName)) ∧
    ∀ entry, middle.entryNamed? (Dotted.withoutLeadingDot declared.typeName) = some entry →
      file.MapsTo registry (Dotted.withoutLeadingDot declared.typeName) entry := by
  have hinside := h.inside _ _ _ _ _ hvisible declared hdeclared hcode
  generalize Dotted.withoutLeadingDot declared.typeName = name at hinside
  by_cases hentity : ∃ entity ∈ file.entities, entity.isMapEntry = true ∧
    entity.name.fullName = name
  · obtain ⟨entity, hmem, hmapEntry, rfl⟩ := hentity
    obtain ⟨message, hmessage, hentry, hname⟩ := hinside entity hmem hmapEntry rfl
    have hbefore := hinner message hmessage hentry
    rw [← hname] at hbefore
    obtain ⟨entry, hfound, hkinds⟩ := h.entryNamed?_of_mem hfile hmiddle hbefore
    rw [hfound]
    refine ⟨iff_of_true ⟨entry, rfl⟩ (.inl ⟨entity, hmem, hmapEntry, rfl⟩), ?_⟩
    rintro _ ⟨⟩
    refine .declared ?_ rfl hkinds
    rw [hfile]
    exact List.mem_append_left _ hbefore
  · have hne : ∀ declaration ∈ before, declaration.entity.isMapEntry = true →
        declaration.name.fullName ≠ name := by
      intro declaration hmem hmapEntry heq
      have hdeclared : declaration ∈ file.declarations := hfile ▸ List.mem_append_left _ hmem
      exact hentity ⟨_, FileDescriptor.entity_mem hdeclared, hmapEntry,
        declaration.name_entity ▸ heq⟩
    rw [Registry.entryNamed?_of_declareAll hmiddle hne]
    exact ⟨⟨.inr, fun hname => hname.resolve_left hentity⟩, fun entry => .known⟩

end FileDescriptor.Orderly

namespace Registry

variable {registry next : Registry} {file : FileDescriptor}

/-- A file that is taken is declared in the registry. -/
theorem declareAll_of_addFile (h : registry.addFile file = .ok next) :
    registry.declareAll file.declarations = .ok next := by
  rw [addFile_eq] at h
  split_ifs at h
  exact h

/-- What is listed after declaring was listed before or is declared as a type. -/
theorem mem_typeNames_of_declareAll {declarations : List Declaration}
    (h : registry.declareAll declarations = .ok next) {name : String}
    (hname : name ∈ next.typeNames) :
    name ∈ registry.typeNames ∨ ∃ declaration ∈ declarations,
      declaration.entity.isMapEntry = false ∧ declaration.name.fullName = name := by
  obtain ⟨listed, hlisted, rfl⟩ := List.mem_map.1 hname
  rw [listing_of_declareAll h] at hlisted
  rcases mem_of_mem_foldl_list hlisted with hold | hnew
  · exact .inl (List.mem_map_of_mem hold)
  · obtain ⟨declaration, hmem, hlisted⟩ := List.mem_filterMap.1 hnew
    refine .inr ⟨declaration, hmem, ?_⟩
    rcases declaration with _ | _ | _ <;> cases hlisted <;> exact ⟨rfl, rfl⟩

/-- What was listed before declaring is listed after it. -/
theorem typeNames_subset_of_declareAll {declarations : List Declaration}
    (h : registry.declareAll declarations = .ok next) : registry.typeNames ⊆ next.typeNames := by
  apply List.map_subset
  rw [listing_of_declareAll h, foldl_list_eq]
  exact List.subset_append_left _ _

/-- Under a name that no message type is declared under, the same type is found as before. -/
theorem messageType_of_declareAll {declarations : List Declaration}
    (h : registry.declareAll declarations = .ok next) {name : String}
    (hdot : Dotted.withoutLeadingDot name = name)
    (hname : ∀ declaration ∈ declarations, declaration.entity.isMapEntry = false →
      declaration.name.fullName ≠ name) :
    next.messageType name = registry.messageType name := by
  have hkey : ∀ declaration ∈ declarations, declaration.messageKey? ≠ some name := by
    intro declaration hmem hkey
    refine hname declaration hmem ?_ (Declaration.fullName_of_key (.inl hkey))
    cases declaration <;> first | rfl | cases hkey
  rw [messageType_eq_elim hdot, messageType_eq_elim hdot, messages, messages, List.lookup_append,
    List.lookup_append, finalized_of_declareAll h, binds_pending.lookup_of_ne hkey h]

/-- A name that is not taken is not listed, and no message type is found under it. -/
theorem not_found_of_not_mem_taken {name : String} (hdot : Dotted.withoutLeadingDot name = name)
    (h : name ∉ registry.taken) : name ∉ registry.typeNames ∧
      registry.messageType name = .error (.unknownType name) := by
  refine ⟨fun hlisted => h (List.mem_append_right _ hlisted), ?_⟩
  have hnone : registry.messages.lookup name = none := by
    refine List.lookup_eq_none_iff.2 fun binding hbinding => ?_
    have hne : name ≠ binding.1 := by
      rintro rfl
      exact h (by simp [taken, List.mem_map_of_mem hbinding])
    simpa using hne
  rw [messageType_eq_elim hdot, hnone]
  rfl

/-- A leading dot makes no difference to what is found. -/
theorem messageType_congr {text other : String}
    (h : Dotted.withoutLeadingDot text = Dotted.withoutLeadingDot other) :
    registry.messageType text = registry.messageType other := by
  unfold messageType
  rw [h]

/-- The fields of a visible message are recognised. -/
theorem exists_recognised (hfile : file.Orderly registry) (hopen : registry.resolved = false)
    (hnext : registry.declareAll file.declarations = .ok next) {parent : Option QualifiedName}
    {symbol : String} {fields : List FieldDescriptor} {nested : List MessageDescriptor}
    {enums : List EnumDescriptor}
    (hvisible : file.Visible parent (.mk symbol fields nested enums false)) :
    ∃ type, next.messageType (under parent symbol).fullName = .ok type ∧
      List.Forall₂ (file.Recognised registry) fields type.fields := by
  obtain ⟨before, after, hsplit, hinner⟩ := hfile.exists_before hvisible
  have hnodup : ((before ++ .message (under parent symbol) fields :: after).filterMap
      Declaration.messageKey?).Nodup := by
    rw [← hsplit]
    exact nodup_filterMap_key (fun _ _ hkey => Declaration.fullName_of_key (.inl hkey))
      hfile.nodup_names
  rw [hsplit] at hnext
  obtain ⟨middle, type, hmiddle, hstands, hfound⟩ :=
    binds_pending.lookup_of_lastAt (lastAt_of_nodup rfl hnodup) hnext
  rcases hstands with @⟨_, _, accepted, hfields⟩
  refine ⟨⟨(under parent symbol).fullName, accepted⟩, ?_, ?_⟩
  · have hproper : (under parent symbol).Proper := hfile.proper hvisible.mem_entities
    rw [messageType_eq_elim hproper.withoutLeadingDot,
      messages_of_open ((resolved_of_declareAll hnext).trans hopen), hfound]
    rfl
  · refine (List.forall₂_iff_zip.2 ⟨(gives_of_fields hfields).length_eq, fun hpair => ?_⟩)
    have hgives := (List.forall₂_iff_zip.1 (gives_of_fields hfields)).2 hpair
    exact FileDescriptor.recognised_of_gives hgives fun hcode =>
      hfile.entryNamed?_of_visible hvisible (List.of_mem_zip hpair).1 hcode hsplit hinner hmiddle

/-- The map entries of a file are neither listed nor found as message types. -/
theorem not_found_of_isMapEntry (hfile : file.Orderly registry)
    (hnext : registry.declareAll file.declarations = .ok next) {entity : Entity}
    (hentity : entity ∈ file.entities) (hmapEntry : entity.isMapEntry = true) :
    entity.name.fullName ∉ next.typeNames ∧
      ∀ text, Dotted.withoutLeadingDot text = entity.name.fullName →
        next.messageType text = .error (.unknownType entity.name.fullName) := by
  have hdot := (hfile.proper hentity).withoutLeadingDot
  obtain ⟨hlisted, hfound⟩ := not_found_of_not_mem_taken hdot (hfile.fresh entity hentity)
  have hother : ∀ declaration ∈ file.declarations, declaration.entity.isMapEntry = false →
      declaration.name.fullName ≠ entity.name.fullName := by
    intro declaration hmem hkind hname
    rw [hfile.isMapEntry_of_fullName hentity hmem hname, hmapEntry] at hkind
    cases hkind
  constructor
  · intro hmem
    rcases mem_typeNames_of_declareAll hnext hmem with hold | ⟨declaration, hmem, hkind, hname⟩
    · exact hlisted hold
    · exact hother declaration hmem hkind hname
  · intro text htext
    rw [messageType_congr (htext.trans hdot.symm), messageType_of_declareAll hnext hdot hother,
      hfound]

/-- Under a name that was one of map entries before, the same is listed and found as it was. -/
theorem found_iff_of_known (hfile : file.Orderly registry)
    (hnext : registry.declareAll file.declarations = .ok next) {name : String} {entry : MapEntry}
    (hknown : registry.entryNamed? name = some entry) :
    (name ∈ next.typeNames ↔ name ∈ registry.typeNames) ∧
      (Dotted.withoutLeadingDot name = name →
        next.messageType name = registry.messageType name) := by
  have hother : ∀ declaration ∈ file.declarations, declaration.entity.isMapEntry = false →
      declaration.name.fullName ≠ name := by
    rintro declaration hmem _ rfl
    have htaken := hfile.fresh _ (FileDescriptor.entity_mem hmem)
    rw [declaration.name_entity] at htaken
    exact htaken (by simp [taken, List.mem_map_of_mem (f := Prod.fst) (mem_of_lookup hknown)])
  refine ⟨⟨fun hmem => ?_, fun hold => typeNames_subset_of_declareAll hnext hold⟩,
    fun hdot => messageType_of_declareAll hnext hdot hother⟩
  rcases mem_typeNames_of_declareAll hnext hmem with hold | ⟨declaration, hmem, hkind, hname⟩
  · exact hold
  · exact absurd hname (hother declaration hmem hkind)

/-- Taking an orderly file recognises the map fields of all visible messages, and map entries are
neither listed nor found as message types; those of the registry are listed and found as they were
before. -/
theorem mapFields_of_addFile (hfile : file.Orderly registry)
    (hadd : registry.addFile file = .ok next) :
    (∀ parent symbol fields nested enums,
      file.Visible parent (.mk symbol fields nested enums false) →
      ∃ type, next.messageType (under parent symbol).fullName = .ok type ∧
        List.Forall₂ (file.Recognised registry) fields type.fields) ∧
    (∀ entity ∈ file.entities, entity.isMapEntry = true →
      entity.name.fullName ∉ next.typeNames ∧
        ∀ text, Dotted.withoutLeadingDot text = entity.name.fullName →
          next.messageType text = .error (.unknownType entity.name.fullName)) ∧
    ∀ name entry, registry.entryNamed? name = some entry →
      (name ∈ next.typeNames ↔ name ∈ registry.typeNames) ∧
        (Dotted.withoutLeadingDot name = name →
          next.messageType name = registry.messageType name) := by
  have hnext := declareAll_of_addFile hadd
  refine ⟨?_, ?_, ?_⟩
  · intro parent symbol fields nested enums hvisible
    exact exists_recognised hfile (addFile_eq_ok_iff.1 hadd).1 hnext hvisible
  · intro entity hentity hmapEntry
    exact not_found_of_isMapEntry hfile hnext hentity hmapEntry
  · intro name entry hknown
    exact found_iff_of_known hfile hnext hknown

/-- In the file with the type of trees, what stands for no map entries is at the top level. -/
theorem visible_tree {parent : Option QualifiedName} {message : MessageDescriptor}
    (h : treeFile.Visible parent message) :
    message.isMapEntry = true ∨ parent = none ∧ message ∈ treeFile.messages := by
  induction h with
  | top hmem => exact .inr ⟨rfl, hmem⟩
  | nested _ _ hmem ih =>
    rcases ih with hfalse | ⟨_, houter⟩
    · cases hfalse
    · cases List.mem_singleton.1 houter
      rw [List.mem_singleton.1 hmem]
      exact .inl rfl

/-- The file with the type of trees is orderly: the entries of its map stand inside the type and
are referred to from there. -/
theorem orderly_tree : treeFile.Orderly {} where
  package := .inl rfl
  symbols := by decide
  distinct := by decide
  fresh := by decide
  inside := by
    intro parent symbol fields nested enums hvisible declared _ _ entity hentity hmapEntry _
    rcases visible_tree hvisible with hfalse | ⟨rfl, hmem⟩
    · cases hfalse
    · cases List.mem_singleton.1 hmem
      have hentities : treeFile.entities = [⟨.within (.root "Tree") "NamedEntry", true⟩,
        ⟨.root "Tree", false⟩] := rfl
      rw [hentities] at hentity
      rcases List.mem_cons.1 hentity with rfl | hentity
      · exact ⟨_, List.mem_singleton_self _, rfl, rfl⟩
      · rw [List.mem_singleton.1 hentity] at hmapEntry
        cases hmapEntry

/-- Taking the file with the type of trees recognises its map field. -/
theorem mapFields_of_addFile_tree :
    (∀ parent symbol fields nested enums,
      treeFile.Visible parent (.mk symbol fields nested enums false) →
      ∃ type, (treeRegistry {}).messageType (under parent symbol).fullName = .ok type ∧
        List.Forall₂ (treeFile.Recognised {}) fields type.fields) ∧
    (∀ entity ∈ treeFile.entities, entity.isMapEntry = true →
      entity.name.fullName ∉ (treeRegistry {}).typeNames ∧
        ∀ text, Dotted.withoutLeadingDot text = entity.name.fullName →
          (treeRegistry {}).messageType text = .error (.unknownType entity.name.fullName)) ∧
    ∀ name entry, ({} : Registry).entryNamed? name = some entry →
      (name ∈ (treeRegistry {}).typeNames ↔ name ∈ ({} : Registry).typeNames) ∧
        (Dotted.withoutLeadingDot name = name →
          (treeRegistry {}).messageType name = ({} : Registry).messageType name) :=
  mapFields_of_addFile orderly_tree
    (show ({} : Registry).addFile treeFile = .ok (treeRegistry {}) from rfl)

end Registry

end DynProto
