import DynProto.Proofs.Name.Qualified
import DynProto.Proofs.Registry.Declarations

/-!
# What stands in a file

Everything in a file has a name, also what is never declared because it stands inside map entries or
in a message without a name: `FileDescriptor.entities` lists it all, and what the file declares is
among it, in the same order (`FileDescriptor.sublist_entities`). A message that can be seen from
outside (`FileDescriptor.Visible`) is declared in one piece with what is inside it
(`FileDescriptor.Visible.infix_declarations`). If the package is valid and no simple name is empty
or has a dot, full names are made of just these segments
(`MessageDescriptor.proper_of_mem_entitiesAll`).
-/

namespace DynProto

open QualifiedName

/-! ## What a file holds -/

/-- A message or an enum of a file, wherever it stands. -/
structure Entity where
  /-- Its name. -/
  name : QualifiedName
  /-- Whether it is a message that stands for map entries. -/
  isMapEntry : Bool

/-- What is declared. -/
def Declaration.entity : Declaration → Entity
  | mapEntry name _ => ⟨name, true⟩
  | message name _ | enum name _ => ⟨name, false⟩

/-- The enums in a scope. -/
def EnumDescriptor.entities (parent : Option QualifiedName) (enums : List EnumDescriptor) :
    List Entity :=
  enums.map fun enum => ⟨under parent enum.name, false⟩

mutual

/-- A message in a scope and all that is inside, also where nothing is declared. -/
def MessageDescriptor.entities (parent : Option QualifiedName) : MessageDescriptor → List Entity
  | .mk symbol _ nested enums isMapEntry =>
    let name := under parent symbol
    MessageDescriptor.entitiesAll (some name) nested ++
      ⟨name, isMapEntry⟩ :: EnumDescriptor.entities (some name) enums

/-- The messages in a scope and all that is inside. -/
def MessageDescriptor.entitiesAll (parent : Option QualifiedName) :
    List MessageDescriptor → List Entity
  | [] => []
  | message :: rest => message.entities parent ++ MessageDescriptor.entitiesAll parent rest

end

namespace FileDescriptor

/-- All messages and enums of a file. -/
def entities (file : FileDescriptor) : List Entity :=
  MessageDescriptor.entitiesAll (ofDotted? file.package) file.messages ++
    EnumDescriptor.entities (ofDotted? file.package) file.enums

/-- A message that stands in a scope of the file and not inside map entries. -/
inductive Visible (file : FileDescriptor) : Option QualifiedName → MessageDescriptor → Prop
  /-- A message at the top level. -/
  | top {message : MessageDescriptor} (h : message ∈ file.messages) :
    Visible file (ofDotted? file.package) message
  /-- A message inside one that stands for no map entries. -/
  | nested {parent : Option QualifiedName} {symbol : String} {fields : List FieldDescriptor}
    {nested : List MessageDescriptor} {enums : List EnumDescriptor} {message : MessageDescriptor}
    (houter : Visible file parent (.mk symbol fields nested enums false)) (hsymbol : symbol ≠ "")
    (h : message ∈ nested) : Visible file (some (under parent symbol)) message

end FileDescriptor

/-! ## Declared names -/

/-- What enums declare is among them, in their order. -/
theorem EnumDescriptor.sublist_entities (parent : Option QualifiedName)
    (enums : List EnumDescriptor) :
    (enums.flatMap (EnumDescriptor.declarations parent)).map Declaration.entity
      |>.Sublist (EnumDescriptor.entities parent enums) := by
  induction enums with
  | nil => exact .slnil
  | cons enum rest ih =>
    rw [List.flatMap_cons, EnumDescriptor.declarations]
    split_ifs
    · exact ih.cons _
    · exact ih.cons_cons _

mutual

/-- What a message declares is among what it holds, in the same order. -/
theorem MessageDescriptor.sublist_entities (parent : Option QualifiedName) :
    (message : MessageDescriptor) →
      ((message.declarations parent).map Declaration.entity).Sublist (message.entities parent)
  | .mk symbol fields nested enums isMapEntry => by
    rw [MessageDescriptor.declarations, MessageDescriptor.entities]
    split_ifs with hempty hmap
    · exact List.nil_sublist _
    · subst hmap
      exact List.singleton_sublist.2 (List.mem_append_right _ List.mem_cons_self)
    · rw [Bool.not_eq_true] at hmap
      subst hmap
      dsimp only
      rw [List.map_append, List.map_cons]
      exact (MessageDescriptor.sublist_entitiesAll _ nested).append
        ((EnumDescriptor.sublist_entities _ enums).cons_cons _)

/-- What messages declare is among what they hold, in the same order. -/
theorem MessageDescriptor.sublist_entitiesAll (parent : Option QualifiedName) :
    (messages : List MessageDescriptor) →
      ((MessageDescriptor.declarationsAll parent messages).map Declaration.entity).Sublist
        (MessageDescriptor.entitiesAll parent messages)
  | [] => .slnil
  | message :: rest => by
    rw [MessageDescriptor.declarationsAll, MessageDescriptor.entitiesAll, List.map_append]
    exact (MessageDescriptor.sublist_entities parent message).append
      (MessageDescriptor.sublist_entitiesAll parent rest)

end

/-- What a file declares is among what it holds, in the same order. -/
theorem FileDescriptor.sublist_entities (file : FileDescriptor) :
    (file.declarations.map Declaration.entity).Sublist file.entities := by
  unfold FileDescriptor.declarations FileDescriptor.entities
  rw [List.map_append]
  exact (MessageDescriptor.sublist_entitiesAll _ file.messages).append
    (EnumDescriptor.sublist_entities _ file.enums)

/-- What a message declares is declared among messages. -/
theorem MessageDescriptor.infix_declarationsAll (parent : Option QualifiedName)
    {message : MessageDescriptor} {messages : List MessageDescriptor} (h : message ∈ messages) :
    message.declarations parent <:+: MessageDescriptor.declarationsAll parent messages := by
  induction messages with
  | nil => exact absurd h List.not_mem_nil
  | cons first rest ih =>
    rw [MessageDescriptor.declarationsAll]
    rcases List.mem_cons.1 h with rfl | h
    · exact (List.prefix_append _ _).isInfix
    · exact (ih h).trans (List.suffix_append _ _).isInfix

/-- What a message declares that has a name and stands for no map entries. -/
theorem MessageDescriptor.declarations_mk (parent : Option QualifiedName) {symbol : String}
    (hsymbol : symbol ≠ "") (fields : List FieldDescriptor) (nested : List MessageDescriptor)
    (enums : List EnumDescriptor) :
    (MessageDescriptor.mk symbol fields nested enums false).declarations parent
      = MessageDescriptor.declarationsAll (some (under parent symbol)) nested ++
        .message (under parent symbol) fields ::
          enums.flatMap (EnumDescriptor.declarations (some (under parent symbol))) := by
  rw [MessageDescriptor.declarations, if_neg (by simpa using hsymbol)]
  rfl

/-- What a visible message declares is declared in one piece. -/
theorem FileDescriptor.Visible.infix_declarations {file : FileDescriptor}
    {parent : Option QualifiedName} {message : MessageDescriptor}
    (h : file.Visible parent message) :
    message.declarations parent <:+: file.declarations := by
  induction h with
  | top hmem =>
    exact (MessageDescriptor.infix_declarationsAll _ hmem).trans (List.prefix_append _ _).isInfix
  | nested _ hsymbol hmem ih =>
    rw [MessageDescriptor.declarations_mk _ hsymbol] at ih
    exact ((MessageDescriptor.infix_declarationsAll _ hmem).trans
      (List.prefix_append _ _).isInfix).trans ih

/-- What a message holds is held among messages. -/
theorem MessageDescriptor.subset_entitiesAll (parent : Option QualifiedName)
    {message : MessageDescriptor} {messages : List MessageDescriptor} (h : message ∈ messages) :
    message.entities parent ⊆ MessageDescriptor.entitiesAll parent messages := by
  induction messages with
  | nil => exact absurd h List.not_mem_nil
  | cons first rest ih =>
    rw [MessageDescriptor.entitiesAll]
    rcases List.mem_cons.1 h with rfl | h
    · exact List.subset_append_left _ _
    · exact List.subset_append_of_subset_right _ (ih h)

/-- What a visible message holds is held by the file. -/
theorem FileDescriptor.Visible.subset_entities {file : FileDescriptor}
    {parent : Option QualifiedName} {message : MessageDescriptor}
    (h : file.Visible parent message) :
    message.entities parent ⊆ file.entities := by
  induction h with
  | top hmem =>
    exact List.subset_append_of_subset_left _ (MessageDescriptor.subset_entitiesAll _ hmem)
  | nested _ _ hmem ih =>
    rw [MessageDescriptor.entities] at ih
    exact List.Subset.trans (List.subset_append_of_subset_left _
      (MessageDescriptor.subset_entitiesAll _ hmem)) ih

/-- A visible message is held by the file. -/
theorem FileDescriptor.Visible.mem_entities {file : FileDescriptor}
    {parent : Option QualifiedName} {message : MessageDescriptor}
    (h : file.Visible parent message) :
    ⟨under parent message.name, message.isMapEntry⟩ ∈ file.entities := by
  apply h.subset_entities
  obtain ⟨symbol, fields, nested, enums, isMapEntry⟩ := message
  rw [MessageDescriptor.entities]
  exact List.mem_append_right _ List.mem_cons_self

/-! ## Proper names -/

/-- A name made of segments that are not empty and hold no dots. -/
def QualifiedName.Proper (name : QualifiedName) : Prop :=
  "" ∉ name.segments ∧ name.Undotted

/-- A proper name has no leading dot. -/
theorem QualifiedName.Proper.withoutLeadingDot {name : QualifiedName} (h : name.Proper) :
    Dotted.withoutLeadingDot name.fullName = name.fullName :=
  withoutLeadingDot_fullName h.1 h.2

/-- A symbol that is not empty and holds no dot. -/
def QualifiedName.ProperSymbol (name : QualifiedName) : Prop :=
  name.symbol ≠ "" ∧ '.' ∉ name.symbol.toList

instance (name : QualifiedName) : Decidable name.ProperSymbol :=
  inferInstanceAs (Decidable (name.symbol ≠ "" ∧ '.' ∉ name.symbol.toList))

/-- What is placed in a scope keeps its symbol. -/
theorem QualifiedName.symbol_under (parent : Option QualifiedName) (symbol : String) :
    (under parent symbol).symbol = symbol := by
  cases parent <;> rfl

/-- A proper symbol in a proper scope gives a proper name. -/
theorem QualifiedName.Proper.under {parent : Option QualifiedName}
    (hparent : ∀ name, parent = some name → name.Proper) {symbol : String}
    (hsymbol : (under parent symbol).ProperSymbol) : (under parent symbol).Proper := by
  unfold ProperSymbol at hsymbol
  rw [symbol_under] at hsymbol
  obtain ⟨hempty, hdot⟩ := hsymbol
  cases parent with
  | none =>
    exact ⟨by simpa [QualifiedName.under] using hempty.symm,
      by simpa [QualifiedName.under, Undotted] using hdot⟩
  | some parent =>
    obtain ⟨hparentEmpty, hparentDot⟩ := hparent parent rfl
    constructor
    · simpa [QualifiedName.under, hparentEmpty] using hempty.symm
    · intro segment hsegment
      rcases List.mem_append.1 hsegment with hsegment | hsegment
      · exact hparentDot segment hsegment
      · rw [List.mem_singleton.1 hsegment]
        exact hdot

mutual

/-- If all symbols in a message are proper, all names are. -/
theorem MessageDescriptor.proper_of_mem_entities {parent : Option QualifiedName}
    (hparent : ∀ name, parent = some name → name.Proper) :
    (message : MessageDescriptor) →
      (∀ entity ∈ message.entities parent, entity.name.ProperSymbol) →
      ∀ entity ∈ message.entities parent, entity.name.Proper
  | .mk symbol _ nested enums isMapEntry, h => by
    rw [MessageDescriptor.entities, List.forall_mem_append, List.forall_mem_cons] at h ⊢
    have hname : (under parent symbol).Proper := .under hparent h.2.1
    have hscope : ∀ name, some (under parent symbol) = some name → name.Proper := by
      rintro _ ⟨⟩
      exact hname
    refine ⟨MessageDescriptor.proper_of_mem_entitiesAll hscope nested h.1, hname, ?_⟩
    intro entity hentity
    obtain ⟨enum, _, rfl⟩ := List.mem_map.1 hentity
    exact .under hscope (h.2.2 _ hentity)

/-- If all symbols in messages are proper, all names are. -/
theorem MessageDescriptor.proper_of_mem_entitiesAll {parent : Option QualifiedName}
    (hparent : ∀ name, parent = some name → name.Proper) :
    (messages : List MessageDescriptor) →
      (∀ entity ∈ MessageDescriptor.entitiesAll parent messages, entity.name.ProperSymbol) →
      ∀ entity ∈ MessageDescriptor.entitiesAll parent messages, entity.name.Proper
  | [], _ => fun _ h => absurd h List.not_mem_nil
  | message :: rest, h => by
    rw [MessageDescriptor.entitiesAll, List.forall_mem_append] at h ⊢
    exact ⟨MessageDescriptor.proper_of_mem_entities hparent message h.1,
      MessageDescriptor.proper_of_mem_entitiesAll hparent rest h.2⟩

end

/-- A package that is valid or empty is a proper scope. -/
theorem proper_of_package {package : String}
    (h : package = "" ∨ isPackageName package = true) :
    ∀ name, ofDotted? package = some name → name.Proper := by
  intro name hname
  rcases h with rfl | h
  · cases hname
  · refine ⟨empty_not_mem_segments_of_isPackageName h hname, ?_⟩
    intro segment hsegment
    rw [segments_of_ofDotted? hname, Dotted.segments, List.mem_map] at hsegment
    obtain ⟨piece, hpiece, rfl⟩ := hsegment
    rw [String.toList_ofList]
    exact Dotted.dot_not_mem_of_mem_splitChars hpiece

end DynProto
