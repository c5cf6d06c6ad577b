import DynProto.Proofs.Name.Qualified
import DynProto.Proofs.Registry.Declarations
import DynProto.Proofs.Registry.Independence

/-!
# A registry is the flattening of its files

A registry that comes about from files answers as the declarations of all of them say, put one after
the other (`flattening_of_addFiles`). Messages and enums share one listing, in which the first
declaration of a full name keeps its place; they are looked up apart, and there the last declaration
of a name counts. Map entries are in neither.

Of an enum the values without a name are left out, so what is found is not all that was declared
(`not_flattening_unnamedValue`).
-/

namespace DynProto

/-! ## The last element with a name -/

section LastAt

variable {δ κ : Type} {key? : δ → Option κ} {ds : List δ} {name : κ} {before : List δ} {d : δ}

/-- Of the elements of a list that bind a name, this is the last; these are the elements before
it. -/
def LastAt (key? : δ → Option κ) (ds : List δ) (name : κ) (before : List δ) (d : δ) : Prop :=
  ∃ after, ds = before ++ d :: after ∧ key? d = some name ∧
    ∀ later ∈ after, key? later ≠ some name

/-- A name that some element binds is bound by a last one. -/
theorem exists_lastAt (hd : d ∈ ds) (hkey : key? d = some name) :
    ∃ before last, LastAt key? ds name before last := by
  induction ds using List.reverseRecOn with
  | nil => exact absurd hd List.not_mem_nil
  | append_singleton front last ih =>
    by_cases hlast : key? last = some name
    · exact ⟨front, last, [], rfl, hlast, by simp⟩
    · have hfront : d ∈ front := by
        rcases List.mem_append.1 hd with hd | hd
        · exact hd
        · rw [List.mem_singleton.1 hd] at hkey
          exact absurd hkey hlast
      obtain ⟨before, found, after, rfl, hfound, hafter⟩ := ih hfront
      refine ⟨before, found, after ++ [last], by simp, hfound, ?_⟩
      exact List.forall_mem_append.2 ⟨hafter, by simpa using hlast⟩

/-- Where the names that elements bind are told apart, each element is the last with its name. -/
theorem lastAt_of_nodup {after : List δ} (hkey : key? d = some name)
    (h : ((before ++ d :: after).filterMap key?).Nodup) :
    LastAt key? (before ++ d :: after) name before d := by
  refine ⟨after, rfl, hkey, fun later hlater heq => ?_⟩
  rw [List.filterMap_append, List.filterMap_cons_some hkey] at h
  have hnot := (List.nodup_cons.1 (List.nodup_append.1 h).2.1).1
  exact hnot (List.mem_filterMap.2 ⟨later, hlater, heq⟩)

end LastAt

namespace Declaration

/-- The name under which a message type is found. -/
def messageKey? : Declaration → Option String
  | message name _ => some name.fullName
  | _ => none

/-- The name under which an enum is found. -/
def enumKey? : Declaration → Option String
  | enum name _ => some name.fullName
  | _ => none

/-- The name under which map entries are known. -/
def mapEntryKey? : Declaration → Option String
  | mapEntry name _ => some name.fullName
  | _ => none

end Declaration

/-! ## What a field declaration gives -/

/-- What a field holds, by its declaration and the map entries that are known. -/
inductive FieldDescriptor.Holds (known : String → Option MapEntry) (declared : FieldDescriptor) :
    FieldKind → Prop
  /-- Its type number is that of a scalar kind. -/
  | scalar {code : Int} {kind : Scalar} (hcode : declared.typeCode = some code)
    (hkind : Scalar.ofCode? code = some kind) :
    Holds known declared (.scalar kind declared.repeated)
  /-- Its type number is that of enums, and it names one. -/
  | enum (hcode : declared.typeCode = some Registry.enumCode) :
    Holds known declared (.enum (Dotted.withoutLeadingDot declared.typeName) declared.repeated)
  /-- Its type number is that of messages, and it names none that stands for map entries. -/
  | message (hcode : declared.typeCode = some Registry.messageCode)
    (hknown : known (Dotted.withoutLeadingDot declared.typeName) = none) :
    Holds known declared (.message (Dotted.withoutLeadingDot declared.typeName) declared.repeated)
  /-- Its type number is that of messages, and it names one that stands for map entries. -/
  | map {entry : MapEntry} (hcode : declared.typeCode = some Registry.messageCode)
    (hknown : known (Dotted.withoutLeadingDot declared.typeName) = some entry) :
    Holds known declared (.map entry.key entry.value)

namespace FieldDescriptor

/-- A field holds a map exactly if map entries are known under its name. -/
theorem Holds.isMap_iff {known : String → Option MapEntry} {declared : FieldDescriptor}
    {kind : FieldKind} (h : declared.Holds known kind) :
    (∃ key value, kind = .map key value) ↔ declared.typeCode = some Registry.messageCode ∧
      ∃ entry, known (Dotted.withoutLeadingDot declared.typeName) = some entry := by
  cases h with
  | @scalar code kind hcode hkind =>
    refine iff_of_false nofun fun ⟨hmessage, _⟩ => ?_
    rw [hcode] at hmessage
    cases hmessage
    cases hkind
  | enum hcode =>
    refine iff_of_false nofun fun ⟨hmessage, _⟩ => ?_
    rw [hcode] at hmessage
    cases hmessage
  | message _ hknown =>
    refine iff_of_false nofun fun ⟨_, entry, hentry⟩ => ?_
    rw [hknown] at hentry
    cases hentry
  | map hcode hknown => exact iff_of_true ⟨_, _, rfl⟩ ⟨hcode, _, hknown⟩

/-- What a field holds that holds no map does not depend on the map entries that are known. -/
theorem Holds.of_ne_map {known : String → Option MapEntry} {declared : FieldDescriptor}
    {kind : FieldKind} (h : declared.Holds known kind)
    (hkind : ∀ key value, kind ≠ .map key value) :
    declared.Holds (fun _ => none) kind := by
  cases h with
  | scalar hcode hscalar => exact .scalar hcode hscalar
  | enum hcode => exact .enum hcode
  | message hcode _ => exact .message hcode rfl
  | map _ _ => exact absurd rfl (hkind _ _)

end FieldDescriptor

/-- A field is the one that is declared. -/
structure FieldDescriptor.Gives (known : String → Option MapEntry) (declared : FieldDescriptor)
    (accepted : Field) : Prop where
  /-- It has the number. -/
  number : (accepted.number : Int) = declared.number
  /-- It has the name. -/
  name : accepted.name = declared.name
  /-- It has the name for JSON, if one is given. -/
  jsonName : accepted.givenJsonName
    = if declared.jsonName.isEmpty then none else some declared.jsonName
  /-- It holds what is declared. -/
  kind : declared.Holds known accepted.kind

namespace Registry

variable {registry next : Registry} {known : String → Option MapEntry}
  {declarations : List Declaration}

/-- The name that a field refers to is the one that is declared. -/
theorem eq_of_referencedName {declared : FieldDescriptor} {name : String}
    (h : referencedName declared = .ok name) :
    name = Dotted.withoutLeadingDot declared.typeName := by
  unfold referencedName at h
  dsimp only at h
  split_ifs at h
  cases h
  rfl

/-- The kind that is accepted is the one that is declared. -/
theorem holds_of_fieldKind {declared : FieldDescriptor} {kind : FieldKind}
    (h : fieldKind known declared = .ok kind) : declared.Holds known kind := by
  by_cases hmessage : declared.typeCode = some messageCode
  · rw [fieldKind_of_messageCode known hmessage] at h
    obtain ⟨name, hname, rfl⟩ := except_map_eq_ok.1 h
    rw [eq_of_referencedName hname]
    rcases hknown : known (Dotted.withoutLeadingDot declared.typeName) with _ | entry
    · exact .message hmessage hknown
    · exact .map hmessage hknown
  · unfold fieldKind at h
    rcases hcode : declared.typeCode with _ | code <;> rw [hcode] at h hmessage
    · cases h
    dsimp only at h
    rw [if_neg fun heq => hmessage (congrArg some heq)] at h
    split_ifs at h with hgroup henum
    · obtain ⟨name, hname, h⟩ := Wire.except_bind_eq_ok.1 h
      cases h
      rw [eq_of_referencedName hname]
      exact .enum (by rw [hcode, henum])
    · rcases hscalar : Scalar.ofCode? code with _ | scalar <;> rw [hscalar] at h <;> cases h
      exact .scalar hcode hscalar

/-- A field that is accepted is the one that is declared. -/
theorem gives_of_field {declared : FieldDescriptor} {accepted : Field}
    (h : field known declared = .ok accepted) : declared.Gives known accepted := by
  obtain ⟨hpos, _⟩ := number_of_field h
  unfold field at h
  split at h
  case isFalse => cases h
  obtain ⟨kind, hkind, h⟩ := Wire.except_bind_eq_ok.1 h
  cases h
  refine ⟨?_, rfl, rfl, holds_of_fieldKind hkind⟩
  have htoNat : 0 < declared.number.toNat := hpos
  show (declared.number.toNat : Int) = declared.number
  omega

/-- The fields of a message type that is accepted are those that are declared. -/
theorem gives_of_fields {declared : List FieldDescriptor} {fields : List Field}
    (h : declared.mapM (field known) = .ok fields) :
    List.Forall₂ (FieldDescriptor.Gives known) declared fields :=
  (mapM_eq_ok_iff.1 h).imp fun _ _ => gives_of_field

/-! ## Look-ups -/

section Table

variable {α : Type} {table : Registry → Bindings α} {key? : Declaration → Option String}
  {Stands : Registry → Declaration → α → Prop}

/-- Each declaration either leaves a table of the registry as it is or binds its key there, to
something that it stands for. -/
def Binds (table : Registry → Bindings α) (key? : Declaration → Option String)
    (Stands : Registry → Declaration → α → Prop) : Prop :=
  ∀ registry declaration next, registry.Declares declaration next →
    key? declaration = none ∧ table next = table registry ∨
      ∃ name a, key? declaration = some name ∧ Stands registry declaration a ∧
        table next = (name, a) :: table registry

/-- Under a name that no declaration binds, a table holds what it held. -/
theorem Binds.lookup_of_ne (hbinds : Binds table key? Stands) {name : String}
    (hname : ∀ declaration ∈ declarations, key? declaration ≠ some name)
    (h : registry.declareAll declarations = .ok next) :
    (table next).lookup name = (table registry).lookup name := by
  refine declareAll_preserves
    (fun middle => (table middle).lookup name = (table registry).lookup name) ?_ h rfl
  intro middle declaration last hmem hmiddle hdeclares
  rcases hbinds middle declaration last hdeclares with ⟨_, htable⟩ | ⟨other, a, hkey, _, htable⟩
  · rw [htable, hmiddle]
  · have hne : name ≠ other := fun heq => hname declaration hmem (heq ▸ hkey)
    have hbeq : (name == other) = false := by simpa using hne
    rw [htable, List.lookup_cons, hbeq, hmiddle]

/-- Under a name that declarations bind, a table holds what the last of them stands for. -/
theorem Binds.lookup_of_lastAt (hbinds : Binds table key? Stands) {name : String}
    {before : List Declaration} {declaration : Declaration}
    (hlast : LastAt key? declarations name before declaration)
    (h : registry.declareAll declarations = .ok next) :
    ∃ middle a, registry.declareAll before = .ok middle ∧ Stands middle declaration a ∧
      (table next).lookup name = some a := by
  obtain ⟨after, rfl, hkey, hafter⟩ := hlast
  rw [declareAll_append] at h
  obtain ⟨middle, hmiddle, h⟩ := Wire.except_bind_eq_ok.1 h
  rw [declareAll_cons] at h
  obtain ⟨last, hdeclare, h⟩ := Wire.except_bind_eq_ok.1 h
  rcases hbinds middle declaration last (declares_of_declare hdeclare) with
    ⟨hnone, _⟩ | ⟨other, a, hother, hstands, htable⟩
  · rw [hkey] at hnone
    cases hnone
  · rw [hkey] at hother
    cases hother
    refine ⟨middle, a, hmiddle, hstands, ?_⟩
    rw [hbinds.lookup_of_ne hafter h, htable]
    exact List.lookup_cons_self

end Table

/-- A message declaration stands for a type with its name and its fields. -/
inductive MessageStands (registry : Registry) : Declaration → MessageType → Prop
  /-- The fields are accepted with the map entries that are known by then. -/
  | intro {name : QualifiedName} {declared : List FieldDescriptor} {fields : List Field}
    (hfields : declared.mapM (field registry.entryNamed?) = .ok fields) :
    MessageStands registry (.message name declared) ⟨name.fullName, fields⟩

/-- Message types are bound by messages, and are pending then. -/
theorem binds_pending : Binds Registry.pending Declaration.messageKey? MessageStands := by
  intro registry declaration next h
  cases h with
  | mapEntry _ => exact .inl ⟨rfl, rfl⟩
  | message hfields => exact .inr ⟨_, _, rfl, .intro hfields, rfl⟩
  | enum => exact .inl ⟨rfl, rfl⟩

/-- An enum declaration stands for an enum with its name and those of its values that have names. -/
inductive EnumStands (registry : Registry) : Declaration → EnumType → Prop
  /-- Values without a name are left out. -/
  | intro {name : QualifiedName} {values : List (String × Int32)} :
    EnumStands registry (.enum name values)
      ⟨name.fullName, values.filter fun value => !value.1.isEmpty⟩

/-- Enums are bound by enums. -/
theorem binds_enums : Binds Registry.enums Declaration.enumKey? EnumStands := by
  intro registry declaration next h
  cases h with
  | mapEntry _ => exact .inl ⟨rfl, rfl⟩
  | message _ => exact .inl ⟨rfl, rfl⟩
  | enum => exact .inr ⟨_, _, rfl, .intro, rfl⟩

/-- A declaration of map entries stands for what its fields say. -/
inductive MapEntryStands (registry : Registry) : Declaration → MapEntry → Prop
  /-- The fields are accepted with the map entries that are known by then. -/
  | intro {name : QualifiedName} {fields : List FieldDescriptor} {entry : MapEntry}
    (hentry : mapEntry registry.entryNamed? name.fullName fields = .ok entry) :
    MapEntryStands registry (.mapEntry name fields) entry

/-- Map entries are bound by messages that stand for them. -/
theorem binds_mapEntries : Binds Registry.mapEntries Declaration.mapEntryKey? MapEntryStands := by
  intro registry declaration next h
  cases h with
  | mapEntry hentry => exact .inr ⟨_, _, rfl, .intro hentry, rfl⟩
  | message _ => exact .inl ⟨rfl, rfl⟩
  | enum => exact .inl ⟨rfl, rfl⟩

/-! ## The listing -/

/-- The entries of a list without those whose full name occurred before. -/
def firsts : List Listed → List Listed
  | [] => []
  | first :: rest =>
    first :: (firsts rest).filter fun listed => listed.name.fullName ≠ first.name.fullName

/-- What is listed after some types is the firsts of what comes, without what was listed. -/
theorem foldl_list_eq (listing more : List Listed) :
    more.foldl list listing = listing ++
      (firsts more).filter fun listed => listed.name.fullName ∉ fullNames listing := by
  induction more generalizing listing with
  | nil => simp [firsts]
  | cons first rest ih =>
    rw [List.foldl_cons, ih, firsts]
    by_cases hfirst : first.name.fullName ∈ fullNames listing
    · rw [list_of_mem hfirst, List.filter_cons_of_neg (by simpa using hfirst), List.filter_filter]
      refine congrArg (listing ++ ·) (List.filter_congr fun listed _ => ?_)
      by_cases heq : listed.name.fullName = first.name.fullName
      · simp [heq, hfirst]
      · simp [heq]
    · rw [list_of_not_mem hfirst, List.filter_cons_of_pos (by simpa using hfirst),
        List.filter_filter, List.append_assoc, List.singleton_append]
      refine congrArg (listing ++ first :: ·) (List.filter_congr fun listed _ => ?_)
      simp [mem_fullNames_append]

/-- Declaring lists what is not listed yet. -/
theorem listing_of_declareAll (h : registry.declareAll declarations = .ok next) :
    next.listing = (declarations.filterMap Declaration.listed?).foldl list registry.listing := by
  induction declarations generalizing registry with
  | nil =>
    cases h
    rfl
  | cons first rest ih =>
    rw [declareAll_cons] at h
    obtain ⟨middle, hfirst, h⟩ := Wire.except_bind_eq_ok.1 h
    rw [ih h]
    cases declares_of_declare hfirst <;> rfl

/-! ## Registries -/

/-- A registry answers as declarations say, of which each was declared after those before it. -/
structure Flattening (options : Options) (declarations : List Declaration) (registry : Registry) :
    Prop where
  /-- All messages and enums are listed in order, without those whose full name came before. -/
  listing : registry.listing = firsts (declarations.filterMap Declaration.listed?)
  /-- Under a name the last message with this name is found, with its fields. -/
  message : ∀ name before declared fields, name.toList.head? ≠ some '.' →
    LastAt Declaration.messageKey? declarations name before (.message declared fields) →
    ∃ earlier type, ({ options } : Registry).declareAll before = .ok earlier ∧
      registry.messageType name = .ok type ∧ type.name = name ∧
      List.Forall₂ (FieldDescriptor.Gives earlier.entryNamed?) fields type.fields
  /-- No message is found exactly where there is none with the name. -/
  noMessage : ∀ name, name.toList.head? ≠ some '.' →
    (registry.messageType name = .error (.unknownType name) ↔
      ∀ declaration ∈ declarations, declaration.messageKey? ≠ some name)
  /-- Under a name the last enum with this name is found, with its values that have names. -/
  enum : ∀ name before declared values, name.toList.head? ≠ some '.' →
    LastAt Declaration.enumKey? declarations name before (.enum declared values) →
    registry.enumType name = .ok ⟨name, values.filter fun value => value.1 ≠ ""⟩
  /-- No enum is found exactly where there is none with the name. -/
  noEnum : ∀ name, name.toList.head? ≠ some '.' →
    (registry.enumType name = .error (.unknownType name) ↔
      ∀ declaration ∈ declarations, declaration.enumKey? ≠ some name)

/-- Looking up a message type under a name without a leading dot. -/
theorem messageType_eq_elim {name : String} (hdot : Dotted.withoutLeadingDot name = name) :
    registry.messageType name
      = (registry.messages.lookup name).elim (.error (.unknownType name)) .ok := by
  rw [messageType_eq, hdot]

/-- Looking up an enum under a name without a leading dot. -/
theorem enumType_eq_elim {name : String} (hdot : Dotted.withoutLeadingDot name = name) :
    registry.enumType name
      = (registry.enums.lookup name).elim (.error (.unknownType name)) .ok := by
  unfold enumType
  simp only [hdot]
  cases registry.enums.lookup name <;> rfl

/-- Nothing is found in a table exactly where no declaration binds the name. -/
theorem Binds.lookup_eq_none_iff {α : Type} {table : Registry → Bindings α}
    {key? : Declaration → Option String} {Stands : Registry → Declaration → α → Prop}
    (hbinds : Binds table key? Stands) (hempty : table registry = [])
    (h : registry.declareAll declarations = .ok next) (name : String) :
    (table next).lookup name = none ↔
      ∀ declaration ∈ declarations, key? declaration ≠ some name := by
  constructor
  · intro hnone declaration hmem hkey
    obtain ⟨before, last, hlast⟩ := exists_lastAt hmem hkey
    obtain ⟨_, a, _, _, hfound⟩ := hbinds.lookup_of_lastAt hlast h
    rw [hnone] at hfound
    cases hfound
  · intro hname
    rw [hbinds.lookup_of_ne hname h, hempty]
    rfl

/-- A look-up fails exactly where the table holds nothing. -/
theorem elim_eq_error_iff {α : Type} {found : Option α} {name : String} :
    (found.elim (.error (.unknownType name)) .ok : Except SchemaError α)
      = .error (.unknownType name) ↔ found = none := by
  cases found <;> simp

/-- The message types that come about by declaring are pending. -/
theorem messages_of_declareAll {options : Options}
    (h : ({ options } : Registry).declareAll declarations = .ok registry) :
    registry.messages = registry.pending :=
  messages_of_open (resolved_of_declareAll h)

/-- A registry that comes about by declaring is the flattening of the declarations. -/
theorem flattening_of_declareAll {options : Options}
    (h : ({ options } : Registry).declareAll declarations = .ok registry) :
    Flattening options declarations registry where
  listing := by
    rw [listing_of_declareAll h, foldl_list_eq]
    simp [fullNames]
  message name before declared fields hdot hlast := by
    obtain ⟨earlier, type, hearlier, hstands, hfound⟩ := binds_pending.lookup_of_lastAt hlast h
    obtain ⟨_, _, hkey, _⟩ := hlast
    rcases hstands with @⟨_, _, accepted, hfields⟩
    refine ⟨earlier, ⟨declared.fullName, accepted⟩, hearlier, ?_, Option.some.inj hkey,
      gives_of_fields hfields⟩
    rw [messageType_eq_elim (Dotted.withoutLeadingDot_of_head hdot), messages_of_declareAll h,
      hfound]
    rfl
  noMessage name hdot := by
    rw [messageType_eq_elim (Dotted.withoutLeadingDot_of_head hdot), elim_eq_error_iff,
      messages_of_declareAll h]
    exact binds_pending.lookup_eq_none_iff rfl h name
  enum name before declared values hdot hlast := by
    obtain ⟨_, type, _, hstands, hfound⟩ := binds_enums.lookup_of_lastAt hlast h
    obtain ⟨_, _, hkey, _⟩ := hlast
    rcases hstands with ⟨⟩
    rw [enumType_eq_elim (Dotted.withoutLeadingDot_of_head hdot), hfound, Option.elim_some,
      Option.some.inj hkey]
    refine congrArg (fun values => Except.ok (EnumType.mk name values))
      (List.filter_congr fun value _ => ?_)
    by_cases hempty : value.1 = ""
    · rw [hempty]
      rfl
    · simp [hempty]
  noEnum name hdot := by
    rw [enumType_eq_elim (Dotted.withoutLeadingDot_of_head hdot), elim_eq_error_iff]
    exact binds_enums.lookup_eq_none_iff rfl h name

/-- Closing a registry changes nothing about its answers. -/
theorem Flattening.resolve {options : Options} (h : Flattening options declarations registry) :
    Flattening options declarations registry.resolve where
  listing := by rw [listing_resolve, h.listing]
  message := by simpa only [messageType_resolve] using h.message
  noMessage := by simpa only [messageType_resolve] using h.noMessage
  enum := by simpa only [enumType_resolve] using h.enum
  noEnum := by simpa only [enumType_resolve] using h.noEnum

/-- A registry that comes about from files answers as their declarations say, put one after the
other, before it is closed and after that; and further files only add to the listing. -/
theorem flattening_of_addFiles {options : Options} {files : List FileDescriptor}
    (h : files.foldlM addFile { options } = .ok registry) :
    Flattening options (files.flatMap FileDescriptor.declarations) registry ∧
      Flattening options (files.flatMap FileDescriptor.declarations) registry.resolve ∧
      ∀ (more : List FileDescriptor) (next : Registry), more.foldlM addFile registry = .ok next →
        registry.listing <+: next.listing := by
  have hdeclared : ({ options } : Registry).declareAll
      (files.flatMap FileDescriptor.declarations) = .ok registry := by
    rw [← foldlM_addFile_eq rfl, h]
  have hflattening := flattening_of_declareAll hdeclared
  refine ⟨hflattening, ?_, fun more next hmore => ?_⟩
  · exact hflattening.resolve
  · rw [foldlM_addFile_eq (resolved_of_declareAll hdeclared)] at hmore
    rw [listing_of_declareAll hmore, foldl_list_eq]
    exact List.prefix_append _ _

/-- The field of a lamp in the first file. -/
def brightnessField : FieldDescriptor where
  name := "brightness"
  number := 1
  typeCode := some 5

/-- The field of a lamp in the second file. -/
def colorField : FieldDescriptor where
  name := "color"
  number := 2
  typeCode := some 14
  typeName := ".home.Color"

/-- Two files of one package. The second one declares the message and the enum of the first one
again, and a message inside the message. -/
def lampFiles : List FileDescriptor :=
  [{ package := "home"
     messages := [.mk "Lamp" [brightnessField] [] [] false]
     enums := [{ name := "Color", values := [("RED", 0)] }] },
   { package := "home"
     messages := [.mk "Lamp" [colorField] [.mk "Timer" [] [] [] false] [] false]
     enums := [{ name := "Color", values := [("RED", 0), ("GREEN", 1)] }] }]

/-- The registry after the two files. -/
def lampRegistry : Registry where
  pending := [("home.Lamp", ⟨"home.Lamp", [⟨2, "color", none, .enum "home.Color" false⟩]⟩),
    ("home.Lamp.Timer", ⟨"home.Lamp.Timer", []⟩),
    ("home.Lamp", ⟨"home.Lamp", [⟨1, "brightness", none, .scalar .int32 false⟩]⟩)]
  enums := [("home.Color", ⟨"home.Color", [("RED", 0), ("GREEN", 1)]⟩),
    ("home.Color", ⟨"home.Color", [("RED", 0)]⟩)]
  listing := [⟨.within (.root "home") "Lamp", false⟩, ⟨.within (.root "home") "Color", true⟩,
    ⟨.within (.within (.root "home") "Lamp") "Timer", false⟩]

/-- The registry after the two files answers as their declarations say. The message and the enum
that are declared twice are listed where the first file has them, before the message inside, and are
found as the second file has them. -/
theorem flattening_of_addFiles_lamps :
    lampFiles.foldlM addFile { options := {} } = .ok lampRegistry ∧
      lampRegistry.typeNames = ["home.Lamp", "home.Color", "home.Lamp.Timer"] ∧
      (∃ before, LastAt Declaration.messageKey? (lampFiles.flatMap FileDescriptor.declarations)
        "home.Lamp" before (.message (.within (.root "home") "Lamp") [colorField])) ∧
      (∃ before, LastAt Declaration.enumKey? (lampFiles.flatMap FileDescriptor.declarations)
        "home.Color" before
        (.enum (.within (.root "home") "Color") [("RED", 0), ("GREEN", 1)])) ∧
      Flattening {} (lampFiles.flatMap FileDescriptor.declarations) lampRegistry ∧
      Flattening {} (lampFiles.flatMap FileDescriptor.declarations) lampRegistry.resolve ∧
      ∀ (more : List FileDescriptor) (next : Registry),
        more.foldlM addFile lampRegistry = .ok next → lampRegistry.listing <+: next.listing := by
  have htaken : lampFiles.foldlM addFile { options := {} } = .ok lampRegistry := rfl
  refine ⟨htaken, rfl, ?_, ?_, flattening_of_addFiles htaken⟩
  · exact ⟨(lampFiles.flatMap FileDescriptor.declarations).take 3,
      (lampFiles.flatMap FileDescriptor.declarations).drop 4, rfl, rfl, by decide⟩
  · exact ⟨(lampFiles.flatMap FileDescriptor.declarations).take 4, [], rfl, rfl, by simp⟩

/-- An enum one of whose values has no name is found without this value. -/
theorem not_flattening_unnamedValue :
    ∃ registry, [({ enums := [{ name := "E", values := [("", 0), ("A", 1)] }] } :
        FileDescriptor)].foldlM addFile {} = .ok registry ∧
      LastAt Declaration.enumKey?
        ([({ enums := [{ name := "E", values := [("", 0), ("A", 1)] }] } :
          FileDescriptor)].flatMap FileDescriptor.declarations)
        "E" [] (.enum (.root "E") [("", 0), ("A", 1)]) ∧
      registry.enumType "E" = .ok ⟨"E", [("A", 1)]⟩ ∧
      registry.enumType "E" ≠ .ok ⟨"E", [("", 0), ("A", 1)]⟩ := by
  refine ⟨_, rfl, ⟨[], rfl, rfl, by simp⟩, rfl, fun heq => ?_⟩
  have hvalues := congrArg EnumType.values (Except.ok.inj heq)
  exact absurd (congrArg List.length hvalues) (by decide)

end Registry

end DynProto
