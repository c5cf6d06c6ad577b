import DynProto.Proofs.Traversal
import DynProto.Registry.Ingest
import Mathlib

/-!
# How files are taken

A file is drafted declaration by declaration: `Draft.Step` says what one declaration adds, and the
draft of a file is reached from the empty one by such steps (`steps_draftFile`). So what the draft
holds is shown by looking at three kinds of steps, and not at the recursion through messages inside
messages. Likewise what taking one file preserves, taking a set of files preserves
(`addSet_preserves`).
-/

namespace DynProto

/-- A package, or a name that is declared in it at any depth. -/
inductive QualifiedName.Scope (package : Option QualifiedName) : Option QualifiedName → Prop
  /-- The package itself. -/
  | package : Scope package package
  /-- A name that is declared in the package or in another such name. -/
  | declared {parent : Option QualifiedName} {symbol : String} (hparent : Scope package parent)
    (hsymbol : symbol ≠ "") : Scope package (some (under parent symbol))

/-- Names declared in a package without empty segments have none. -/
theorem QualifiedName.Scope.empty_not_mem_segments {package scope : Option QualifiedName}
    (h : Scope package scope) (hpackage : ∀ name, package = some name → "" ∉ name.segments) :
    ∀ name, scope = some name → "" ∉ name.segments := by
  induction h with
  | package => exact hpackage
  | @declared parent symbol _ hsymbol ih =>
    rintro _ ⟨⟩
    cases parent with
    | none => simpa [under] using hsymbol.symm
    | some parent => simpa [under, hsymbol.symm] using ih parent rfl

open QualifiedName

/-! ## Drafts -/

namespace Draft

/-- What a draft becomes by one declaration of a file in a package. -/
inductive Step (registry : Registry) (package : Option QualifiedName) : Draft → Draft → Prop
  /-- A message stands for the entries of a map. -/
  | mapEntry {draft : Draft} {parent : Option QualifiedName} {symbol : String}
    {declared : List FieldDescriptor} {entry : MapEntry} (hparent : Scope package parent)
    (hsymbol : symbol ≠ "")
    (hentry : Registry.mapEntry (registry.mapShape? draft) (under parent symbol).fullName declared
      = .ok entry) :
    Step registry package draft
      { draft with mapEntries := ((under parent symbol).fullName, entry) :: draft.mapEntries }
  /-- A message is a type. -/
  | message {draft : Draft} {parent : Option QualifiedName} {symbol : String}
    {declared : List FieldDescriptor} {fields : List Field} (hparent : Scope package parent)
    (hsymbol : symbol ≠ "")
    (hfields : declared.mapM (Registry.field (registry.mapShape? draft)) = .ok fields) :
    Step registry package draft
      { draft with
        messages := draft.messages ++ [⟨(under parent symbol).fullName, fields⟩]
        listing := draft.listing ++ [⟨under parent symbol, false⟩] }
  /-- An enum is a type. -/
  | enum {draft : Draft} {parent : Option QualifiedName} {declared : EnumDescriptor}
    (hparent : Scope package parent) (hsymbol : declared.name ≠ "") :
    Step registry package draft
      { draft with
        enums := draft.enums ++ [⟨(under parent declared.name).fullName,
          declared.values.filter fun value => !value.1.isEmpty⟩]
        listing := draft.listing ++ [⟨under parent declared.name, true⟩] }

/-- What a draft becomes by several declarations. -/
abbrev Steps (registry : Registry) (package : Option QualifiedName) : Draft → Draft → Prop :=
  Relation.ReflTransGen (Step registry package)

/-- What each step preserves, several steps preserve. -/
theorem Steps.preserves {registry : Registry} {package : Option QualifiedName} {draft next : Draft}
    (P : Draft → Prop) (hstep : ∀ draft next, P draft → Step registry package draft next → P next)
    (hsteps : Steps registry package draft next) (hdraft : P draft) : P next := by
  induction hsteps with
  | refl => exact hdraft
  | tail _ hlast ih => exact hstep _ _ ih hlast

end Draft

namespace Registry

variable {registry next : Registry} {package parent : Option QualifiedName} {draft later : Draft}

open Draft

/-! ## Declarations -/

/-- An enum is drafted in a step, or left out. -/
theorem steps_draftEnum (registry : Registry) (hparent : Scope package parent) (draft : Draft)
    (declared : EnumDescriptor) :
    Steps registry package draft (draftEnum draft parent declared) := by
  unfold draftEnum
  split
  · exact .refl
  · rename_i hsymbol
    refine .single (.enum hparent ?_)
    intro hempty
    exact hsymbol (String.isEmpty_iff.2 hempty)

/-- Enums are drafted in steps. -/
theorem steps_draftEnums (registry : Registry) (hparent : Scope package parent) (draft : Draft)
    (declared : List EnumDescriptor) :
    Steps registry package draft (draftEnums draft parent declared) := by
  unfold draftEnums
  induction declared generalizing draft with
  | nil => exact .refl
  | cons enum rest ih =>
    rw [List.foldl_cons]
    exact (steps_draftEnum registry hparent draft enum).trans (ih _)

mutual

/-- A message is drafted in steps: all that is declared inside it and the message itself. -/
theorem steps_draftMessage {draft later : Draft} {parent : Option QualifiedName} :
    (message : MessageDescriptor) → Scope package parent →
      draftMessage registry draft parent message = .ok later → Steps registry package draft later
  | .mk symbol declared nested enums isMapEntry, hparent, h => by
    rw [draftMessage] at h
    split_ifs at h with hempty hmap
    · cases h
      exact .refl
    · have hsymbol : symbol ≠ "" := fun heq => hempty (String.isEmpty_iff.2 heq)
      obtain ⟨entry, hentry, h⟩ := Wire.except_bind_eq_ok.1 h
      cases h
      exact .single (.mapEntry hparent hsymbol hentry)
    · have hsymbol : symbol ≠ "" := fun heq => hempty (String.isEmpty_iff.2 heq)
      have hscope := hparent.declared hsymbol
      obtain ⟨inner, hinner, h⟩ := Wire.except_bind_eq_ok.1 h
      obtain ⟨fields, hfields, h⟩ := Wire.except_bind_eq_ok.1 h
      cases h
      have hnested := steps_draftMessages nested hscope hinner
      exact (hnested.tail (.message hparent hsymbol hfields)).trans
        (steps_draftEnums registry hscope _ enums)

/-- Messages are drafted in steps. -/
theorem steps_draftMessages {draft later : Draft} {parent : Option QualifiedName} :
    (messages : List MessageDescriptor) → Scope package parent →
      draftMessages registry draft parent messages = .ok later → Steps registry package draft later
  | [], _, h => by
    rw [draftMessages] at h
    cases h
    exact .refl
  | message :: rest, hparent, h => by
    rw [draftMessages] at h
    obtain ⟨middle, hmiddle, h⟩ := Wire.except_bind_eq_ok.1 h
    exact (steps_draftMessage message hparent hmiddle).trans (steps_draftMessages rest hparent h)

end

/-- A file is drafted in steps. -/
theorem steps_draftFile {file : FileDescriptor} (h : registry.draftFile file = .ok draft) :
    Steps registry (ofDotted? file.package) {} draft := by
  obtain ⟨messages, hmessages, h⟩ := Wire.except_bind_eq_ok.1 h
  cases h
  exact (steps_draftMessages file.messages .package hmessages).trans
    (steps_draftEnums registry .package messages file.enums)

/-! ## Files -/

/-- The message types of a draft are declared under their names, in addition to those before. -/
theorem mem_messages_commit {binding : String × MessageType} :
    binding ∈ (registry.commit draft).messages ↔
      (∃ type ∈ draft.messages, (type.name, type) = binding) ∨ binding ∈ registry.messages := by
  simp only [messages, commit, List.mem_append, List.mem_reverse, List.mem_map]
  exact or_left_comm

/-- A file is taken if the registry is open and the file can be drafted. -/
theorem addFile_eq_ok_iff {file : FileDescriptor} :
    registry.addFile file = .ok next ↔
      registry.resolved = false ∧ ∃ draft, registry.draftFile file = .ok draft
        ∧ registry.commit draft = next := by
  unfold addFile
  split_ifs with hresolved
  · simp [hresolved]
  · simp [hresolved, except_map_eq_ok]

/-- What taking one file preserves, taking several files preserves, as far as they are taken. -/
theorem addFiles_preserves (P : Registry → Prop)
    (hfile : ∀ registry file next, isAccepted file = true → P registry →
      registry.addFile file = .ok next → P next)
    (files : List FileDescriptor) (summary : Summary) (h : P registry) :
    P (registry.addFiles summary files).1 := by
  induction files generalizing registry summary with
  | nil => exact h
  | cons file rest ih =>
    rw [addFiles]
    split
    · rename_i haccepted
      split
      · rename_i next hnext
        exact ih _ (hfile registry file next haccepted h hnext)
      · exact h
    · exact ih _ h

/-- What taking one file preserves, taking a set of files preserves. -/
theorem addSet_preserves (P : Registry → Prop)
    (hfile : ∀ registry file next, isAccepted file = true → P registry →
      registry.addFile file = .ok next → P next)
    (buffer : Bytes) (h : P registry) : P (registry.addSet buffer).1 := by
  unfold addSet
  split
  · exact h
  · split
    · exact addFiles_preserves P hfile _ _ h
    · exact h

end Registry

end DynProto
