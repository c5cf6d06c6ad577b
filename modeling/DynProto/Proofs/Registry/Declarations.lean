import DynProto.Proofs.Registry.Drafting

/-!
# The declarations of a file, one by one

A file is taken in two stages: its messages and enums are drafted in a walk through messages inside
messages, and the draft is committed table by table. The outcome is that of a plain loop: the file
is a list of declarations (`FileDescriptor.declarations`), each of which adds to the registry what
it stands for (`Registry.declare`), and taking the file is declaring them in this order, error for
error (`addFile_eq`). A message is declared after the messages in it and before its enums.
-/

namespace DynProto

open QualifiedName

/-! ## Declarations -/

/-- Something that a file declares. -/
inductive Declaration where
  /-- A message that stands for the entries of a map. -/
  | mapEntry (name : QualifiedName) (fields : List FieldDescriptor)
  /-- A message type. -/
  | message (name : QualifiedName) (fields : List FieldDescriptor)
  /-- An enum. -/
  | enum (name : QualifiedName) (values : List (String × Int32))

namespace Declaration

/-- The name that is declared. -/
def name : Declaration → QualifiedName
  | mapEntry name _ | message name _ | enum name _ => name

/-- The entry of the listing; map entries are not listed. -/
def listed? : Declaration → Option Listed
  | mapEntry _ _ => none
  | message name _ => some ⟨name, false⟩
  | enum name _ => some ⟨name, true⟩

end Declaration

/-- The declaration of an enum in a scope; one without a name declares nothing. -/
def EnumDescriptor.declarations (parent : Option QualifiedName) (enum : EnumDescriptor) :
    List Declaration :=
  if enum.name.isEmpty then [] else [.enum (under parent enum.name) enum.values]

mutual

/-- What a message in a scope declares: first the messages inside, then itself, then its enums. One
without a name declares nothing, and one that stands for map entries nothing but itself. -/
def MessageDescriptor.declarations (parent : Option QualifiedName) :
    MessageDescriptor → List Declaration
  | .mk symbol fields nested enums isMapEntry =>
    if symbol.isEmpty then []
    else
      let name := under parent symbol
      if isMapEntry then [.mapEntry name fields]
      else
        MessageDescriptor.declarationsAll (some name) nested ++
          .message name fields :: enums.flatMap (EnumDescriptor.declarations (some name))

/-- What messages in a scope declare, one after the other. -/
def MessageDescriptor.declarationsAll (parent : Option QualifiedName) :
    List MessageDescriptor → List Declaration
  | [] => []
  | message :: rest => message.declarations parent ++ MessageDescriptor.declarationsAll parent rest

end

/-- What a file declares: its messages with all that is inside, then its enums. -/
def FileDescriptor.declarations (file : FileDescriptor) : List Declaration :=
  MessageDescriptor.declarationsAll (ofDotted? file.package) file.messages ++
    file.enums.flatMap (EnumDescriptor.declarations (ofDotted? file.package))

namespace Registry

/-- The map entry with a name. -/
def entryNamed? (registry : Registry) (name : String) : Option MapEntry :=
  registry.mapEntries.lookup name

/-- The registry with one more declaration. -/
def declare (registry : Registry) : Declaration → Except SchemaError Registry
  | .mapEntry name fields => do
    let entry ← mapEntry registry.entryNamed? name.fullName fields
    .ok { registry with mapEntries := (name.fullName, entry) :: registry.mapEntries }
  | .message name fields => do
    let fields ← fields.mapM (field registry.entryNamed?)
    .ok { registry with
      pending := (name.fullName, ⟨name.fullName, fields⟩) :: registry.pending
      listing := list registry.listing ⟨name, false⟩ }
  | .enum name values =>
    .ok { registry with
      enums := (name.fullName, ⟨name.fullName, values.filter fun value => !value.1.isEmpty⟩) ::
        registry.enums
      listing := list registry.listing ⟨name, true⟩ }

/-- The registry with several declarations, one after the other. -/
def declareAll (registry : Registry) (declarations : List Declaration) :
    Except SchemaError Registry :=
  declarations.foldlM declare registry

/-- Declarations may be split. -/
theorem declareAll_append (registry : Registry) (front back : List Declaration) :
    registry.declareAll (front ++ back) = registry.declareAll front >>= (declareAll · back) :=
  List.foldlM_append ..

/-- The first declaration comes first. -/
theorem declareAll_cons (registry : Registry) (first : Declaration) (rest : List Declaration) :
    registry.declareAll (first :: rest) = registry.declare first >>= (declareAll · rest) :=
  List.foldlM_cons ..

/-! ## Drafting is declaring -/

variable {registry : Registry} {draft : Draft} {parent : Option QualifiedName}

/-- The map entries that are known to a draft are those of the registry with the draft. -/
theorem mapShape?_eq (registry : Registry) (draft : Draft) :
    registry.mapShape? draft = (registry.commit draft).entryNamed? := by
  funext name
  unfold mapShape? entryNamed? commit
  rw [List.lookup_append]

/-- An empty draft adds nothing. -/
theorem commit_empty (registry : Registry) : registry.commit {} = registry := rfl

/-- Map entries are drafted as they are declared. -/
theorem declare_mapEntry (registry : Registry) (draft : Draft) (name : QualifiedName)
    (fields : List FieldDescriptor) :
    (registry.commit draft).declare (.mapEntry name fields)
      = (mapEntry (registry.mapShape? draft) name.fullName fields).map fun entry =>
        registry.commit
          { draft with mapEntries := (name.fullName, entry) :: draft.mapEntries } := by
  rw [declare, ← mapShape?_eq]
  rcases mapEntry (registry.mapShape? draft) name.fullName fields with error | entry <;> rfl

/-- A message type is drafted as it is declared. -/
theorem declare_message (registry : Registry) (draft : Draft) (name : QualifiedName)
    (fields : List FieldDescriptor) :
    (registry.commit draft).declare (.message name fields)
      = (fields.mapM (field (registry.mapShape? draft))).map fun fields =>
        registry.commit { draft with
          messages := draft.messages ++ [⟨name.fullName, fields⟩]
          listing := draft.listing ++ [⟨name, false⟩] } := by
  rw [declare, ← mapShape?_eq]
  rcases fields.mapM (field (registry.mapShape? draft)) with error | fields
  · rfl
  · simp [commit, List.foldl_append, bind, Except.bind, Except.map]

/-- An enum is drafted as it is declared. -/
theorem declareAll_draftEnum (registry : Registry) (draft : Draft) (parent : Option QualifiedName)
    (enum : EnumDescriptor) :
    (registry.commit draft).declareAll (enum.declarations parent)
      = .ok (registry.commit (draftEnum draft parent enum)) := by
  unfold EnumDescriptor.declarations draftEnum
  split_ifs
  · rfl
  · simp [declareAll, declare, commit, List.foldl_append, bind, Except.bind, pure, Except.pure]

/-- Enums are drafted as they are declared. -/
theorem declareAll_draftEnums (registry : Registry) (draft : Draft)
    (parent : Option QualifiedName) (enums : List EnumDescriptor) :
    (registry.commit draft).declareAll (enums.flatMap (EnumDescriptor.declarations parent))
      = .ok (registry.commit (draftEnums draft parent enums)) := by
  unfold draftEnums
  induction enums generalizing draft with
  | nil => rfl
  | cons enum rest ih =>
    rw [List.flatMap_cons, declareAll_append, declareAll_draftEnum]
    exact ih (draftEnum draft parent enum)

mutual

/-- A message is drafted as it is declared. -/
theorem declareAll_draftMessage {draft : Draft} {parent : Option QualifiedName} :
    (message : MessageDescriptor) →
      (registry.commit draft).declareAll (message.declarations parent)
        = (draftMessage registry draft parent message).map registry.commit
  | .mk symbol fields nested enums isMapEntry => by
    rw [MessageDescriptor.declarations, draftMessage]
    split_ifs with hempty hmap
    · rfl
    · dsimp only
      rw [declareAll_cons, declare_mapEntry]
      rcases mapEntry (registry.mapShape? draft) (under parent symbol).fullName fields with
        error | entry <;> rfl
    · dsimp only
      rw [declareAll_append, declareAll_draftMessages nested]
      rcases draftMessages registry draft (some (under parent symbol)) nested with error | inner
      · rfl
      · show (registry.commit inner).declareAll (.message _ fields :: _)
          = (fields.mapM (field (registry.mapShape? inner)) >>= fun _ => _).map registry.commit
        rw [declareAll_cons, declare_message]
        rcases fields.mapM (field (registry.mapShape? inner)) with error | fields
        · rfl
        · exact declareAll_draftEnums registry _ _ enums

/-- Messages are drafted as they are declared. -/
theorem declareAll_draftMessages {draft : Draft} {parent : Option QualifiedName} :
    (messages : List MessageDescriptor) →
      (registry.commit draft).declareAll (MessageDescriptor.declarationsAll parent messages)
        = (draftMessages registry draft parent messages).map registry.commit
  | [] => by
    rw [MessageDescriptor.declarationsAll, draftMessages]
    rfl
  | message :: rest => by
    rw [MessageDescriptor.declarationsAll, draftMessages, declareAll_append,
      declareAll_draftMessage message]
    rcases draftMessage registry draft parent message with error | middle
    · rfl
    · exact declareAll_draftMessages rest

end

/-- A file is drafted as it is declared. -/
theorem declareAll_declarations (registry : Registry) (file : FileDescriptor) :
    registry.declareAll file.declarations = (registry.draftFile file).map registry.commit := by
  have hmessages : (registry.commit {}).declareAll
      (MessageDescriptor.declarationsAll (ofDotted? file.package) file.messages)
        = (draftMessages registry {} (ofDotted? file.package) file.messages).map registry.commit :=
    declareAll_draftMessages file.messages
  rw [commit_empty] at hmessages
  unfold FileDescriptor.declarations draftFile
  dsimp only
  rw [declareAll_append, hmessages]
  rcases draftMessages registry {} (ofDotted? file.package) file.messages with error | draft
  · rfl
  · exact declareAll_draftEnums registry draft _ file.enums

/-- Taking a file is declaring what it declares, if the registry is open. -/
theorem addFile_eq (registry : Registry) (file : FileDescriptor) :
    registry.addFile file = if registry.resolved then .error .alreadyResolved
      else registry.declareAll file.declarations := by
  rw [addFile, declareAll_declarations]

/-- What a registry becomes by a declaration that is accepted. -/
inductive Declares (registry : Registry) : Declaration → Registry → Prop
  /-- Map entries are bound to their name and not listed. -/
  | mapEntry {name : QualifiedName} {fields : List FieldDescriptor} {entry : MapEntry}
    (hentry : Registry.mapEntry registry.entryNamed? name.fullName fields = .ok entry) :
    Declares registry (.mapEntry name fields)
      { registry with mapEntries := (name.fullName, entry) :: registry.mapEntries }
  /-- A message type is bound to its name and listed. -/
  | message {name : QualifiedName} {declared : List FieldDescriptor} {fields : List Field}
    (hfields : declared.mapM (field registry.entryNamed?) = .ok fields) :
    Declares registry (.message name declared)
      { registry with
        pending := (name.fullName, ⟨name.fullName, fields⟩) :: registry.pending
        listing := list registry.listing ⟨name, false⟩ }
  /-- An enum is bound to its name and listed. -/
  | enum {name : QualifiedName} {values : List (String × Int32)} :
    Declares registry (.enum name values)
      { registry with
        enums := (name.fullName, ⟨name.fullName, values.filter fun value => !value.1.isEmpty⟩) ::
          registry.enums
        listing := list registry.listing ⟨name, true⟩ }

/-- That is all that a declaration can do. -/
theorem declares_of_declare {registry next : Registry} {declaration : Declaration}
    (h : registry.declare declaration = .ok next) : registry.Declares declaration next := by
  rcases declaration with ⟨name, fields⟩ | ⟨name, fields⟩ | ⟨name, values⟩
  · obtain ⟨entry, hentry, h⟩ := Wire.except_bind_eq_ok.1 h
    cases h
    exact .mapEntry hentry
  · obtain ⟨fields, hfields, h⟩ := Wire.except_bind_eq_ok.1 h
    cases h
    exact .message hfields
  · cases h
    exact .enum

/-- What each declaration preserves, several declarations preserve. -/
theorem declareAll_preserves (P : Registry → Prop) {declarations : List Declaration}
    (hstep : ∀ registry declaration next, declaration ∈ declarations → P registry →
      registry.Declares declaration next → P next)
    {registry next : Registry} (h : registry.declareAll declarations = .ok next)
    (hregistry : P registry) : P next :=
  foldlM_preserves P (fun registry declaration next hmem hP hdeclare =>
    hstep registry declaration next hmem hP (declares_of_declare hdeclare)) hregistry h

/-- Declaring does not close a registry. -/
theorem resolved_of_declareAll {declarations : List Declaration} {registry next : Registry}
    (h : registry.declareAll declarations = .ok next) : next.resolved = registry.resolved :=
  declareAll_preserves (fun middle => middle.resolved = registry.resolved)
    (fun _ _ _ _ hmiddle hstep => by cases hstep <;> exact hmiddle) h rfl

/-- Nor does it finalize anything. -/
theorem finalized_of_declareAll {declarations : List Declaration} {registry next : Registry}
    (h : registry.declareAll declarations = .ok next) : next.finalized = registry.finalized :=
  declareAll_preserves (fun middle => middle.finalized = registry.finalized)
    (fun _ _ _ _ hmiddle hstep => by cases hstep <;> exact hmiddle) h rfl

/-- Taking files one after the other is declaring what all of them declare. -/
theorem foldlM_addFile_eq {registry : Registry} (hopen : registry.resolved = false)
    (files : List FileDescriptor) :
    files.foldlM addFile registry
      = registry.declareAll (files.flatMap FileDescriptor.declarations) := by
  induction files generalizing registry with
  | nil => rfl
  | cons file rest ih =>
    rw [List.foldlM_cons, List.flatMap_cons, declareAll_append, addFile_eq, hopen]
    rcases hfile : registry.declareAll file.declarations with error | next
    · simp [bind, Except.bind]
    · have hnext : next.resolved = false := (resolved_of_declareAll hfile).trans hopen
      simpa [hfile, bind, Except.bind] using ih hnext

end Registry

end DynProto
