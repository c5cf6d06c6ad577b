import DynProto.Proofs.Record.WellFormed
import DynProto.Proofs.Registry.Drafting

/-!
# Registries that can be reached

A registry comes about from declarations alone: `Reachable` starts with the empty one and adds
files, sets of files and the closing. In every such registry the fields of all message types have
numbers that fields may have (`numbered_of_reachable`), because a declaration with another number is
refused before anything of its file is added. What a schema may lack is named here as well: distinct
numbers (`DistinctNumbers`), types for all references (`Linked`) and plain keys that lead to their
fields (`PlainKeyed`).
-/

namespace DynProto

/-- All fields of a message type have numbers that fields may have. -/
def MessageType.Numbered (type : MessageType) : Prop :=
  ∀ field ∈ type.fields, 0 < field.number ∧ field.number ≤ Registry.maxFieldNumber

namespace Registry

/-- A registry that comes about from an empty one with some options by taking declarations. -/
inductive Reachable : Registry → Prop
  /-- Nothing is declared. -/
  | empty (options : Options) : Reachable { options }
  /-- A file is taken. -/
  | addFile {registry next : Registry} {file : FileDescriptor} (h : Reachable registry)
    (hadd : registry.addFile file = .ok next) : Reachable next
  /-- A set of files is taken, as far as it can be. -/
  | addSet {registry : Registry} (h : Reachable registry) (buffer : Bytes) :
    Reachable (registry.addSet buffer).1
  /-- The registry is closed. -/
  | resolve {registry : Registry} (h : Reachable registry) : Reachable registry.resolve

/-- What holds of the empty registries and is preserved by taking a file and by closing holds of
every registry that can be reached. -/
theorem Reachable.preserves {registry : Registry} (P : Registry → Prop)
    (hempty : ∀ options, P { options })
    (hfile : ∀ registry file next, P registry → registry.addFile file = .ok next → P next)
    (hresolve : ∀ registry, P registry → P registry.resolve) (h : Reachable registry) :
    P registry := by
  induction h with
  | empty options => exact hempty options
  | addFile _ hadd ih => exact hfile _ _ _ ih hadd
  | addSet _ buffer ih =>
    exact addSet_preserves P (fun registry file next _ => hfile registry file next) buffer ih
  | resolve _ ih => exact hresolve _ ih

/-! ## Numbers of fields -/

/-- A field that is accepted has a number that fields may have. -/
theorem number_of_field {mapOf? : String → Option MapEntry} {declared : FieldDescriptor}
    {accepted : Field} (h : field mapOf? declared = .ok accepted) :
    0 < accepted.number ∧ accepted.number ≤ maxFieldNumber := by
  unfold field at h
  split at h
  · rename_i hnumber
    obtain ⟨kind, _, h⟩ := Wire.except_bind_eq_ok.1 h
    cases h
    simp only [isFieldNumber, Bool.and_eq_true, decide_eq_true_eq] at hnumber
    show 0 < declared.number.toNat ∧ declared.number.toNat ≤ maxFieldNumber
    omega
  · cases h

/-- All message types of a draft are numbered. -/
def NumberedDraft (draft : Draft) : Prop :=
  ∀ type ∈ draft.messages, type.Numbered

/-- A declaration adds only message types that are numbered. -/
theorem numberedDraft_step {registry : Registry} {package : Option QualifiedName}
    {draft next : Draft} (hdraft : NumberedDraft draft)
    (hstep : Draft.Step registry package draft next) : NumberedDraft next := by
  cases hstep with
  | mapEntry _ _ _ => exact hdraft
  | message _ _ hfields =>
    intro type htype
    rcases List.mem_append.1 htype with htype | htype
    · exact hdraft type htype
    · rw [List.mem_singleton.1 htype]
      intro accepted haccepted
      obtain ⟨declared, _, hdeclared⟩ := exists_of_forall₂ (mapM_eq_ok_iff.1 hfields).flip haccepted
      exact number_of_field hdeclared
  | enum _ _ => exact hdraft

/-- All message types that were ever declared are numbered. -/
def NumberedBindings (registry : Registry) : Prop :=
  ∀ binding ∈ registry.messages, binding.2.Numbered

/-- A file that is taken adds numbered types. -/
theorem numbered_addFile {registry next : Registry} {file : FileDescriptor}
    (hregistry : NumberedBindings registry) (h : registry.addFile file = .ok next) :
    NumberedBindings next := by
  obtain ⟨_, draft, hdraft, rfl⟩ := addFile_eq_ok_iff.1 h
  have hnumbered : NumberedDraft draft :=
    (steps_draftFile hdraft).preserves NumberedDraft (fun _ _ => numberedDraft_step)
      fun _ h => absurd h List.not_mem_nil
  intro binding hbinding
  rcases mem_messages_commit.1 hbinding with ⟨type, htype, rfl⟩ | hold
  · exact hnumbered type htype
  · exact hregistry binding hold

/-- All message types of a registry that can be reached are numbered. -/
theorem numbered_of_reachable {registry : Registry} (h : Reachable registry) :
    NumberedBindings registry :=
  h.preserves NumberedBindings (fun _ _ h => absurd h List.not_mem_nil)
    (fun _ _ _ => numbered_addFile) fun registry h => by
      rwa [NumberedBindings, messages_resolve]

/-- What is found under a name is bound to it. -/
theorem mem_of_lookup {α : Type} {bindings : Bindings α} {name : String} {a : α}
    (h : bindings.lookup name = some a) : (name, a) ∈ bindings := by
  obtain ⟨front, back, rfl, _⟩ := List.lookup_eq_some_iff.1 h
  exact List.mem_append_right _ List.mem_cons_self

/-- A type that is found was declared under the name. -/
theorem mem_messages_of_messageType {registry : Registry} {name : String} {type : MessageType}
    (h : registry.messageType name = .ok type) :
    (Dotted.withoutLeadingDot name, type) ∈ registry.messages := by
  rw [messageType_eq] at h
  rcases hfound : registry.messages.lookup (Dotted.withoutLeadingDot name) with _ | found <;>
    rw [hfound] at h <;> cases h
  exact mem_of_lookup hfound

/-- A type that is found in a registry that can be reached is numbered. -/
theorem numbered_of_messageType {registry : Registry} (h : Reachable registry) {name : String}
    {type : MessageType} (htype : registry.messageType name = .ok type) : type.Numbered :=
  numbered_of_reachable h _ (mem_messages_of_messageType htype)

/-- A type that a codec finds is found in the registry. -/
theorem messageType_of_codecMessageType {registry : Registry} {name : String} {type : MessageType}
    (h : registry.codecMessageType name = .ok type) : registry.messageType name = .ok type := by
  unfold codecMessageType at h
  rcases hfound : registry.messageType name with error | found <;> rw [hfound] at h <;> cases h
  rfl

/-- A codec fails to find a type only because it is not declared. -/
theorem exists_unknownType_of_codecMessageType {registry : Registry} {name : String}
    {error : CodecError} (h : registry.codecMessageType name = .error error) :
    ∃ undeclared, error = .schema (.unknownType undeclared) := by
  unfold codecMessageType messageType at h
  simp only at h
  split at h
  · cases h
  · cases h
    exact ⟨_, rfl⟩

/-- A type that a type refers to is found in the registry if the type itself is. -/
theorem exists_messageType_of_refers {registry : Registry} {name : String}
    {type child : MessageType} (htype : registry.messageType name = .ok type)
    (h : registry.Refers type child) : ∃ name, registry.messageType name = .ok child := by
  rcases h with _ | ⟨_, _, _, hchild⟩
  · exact ⟨name, htype⟩
  · exact ⟨_, messageType_of_codecMessageType hchild⟩

/-! ## Distinct numbers -/

/-- No message type that is found has two fields with one number. -/
def DistinctNumbers (registry : Registry) : Prop :=
  ∀ name type, registry.messageType name = .ok type → (type.fields.map Field.number).Nodup

/-- It is enough that no declared type has. -/
theorem distinctNumbers_of_messages {registry : Registry}
    (h : ∀ binding ∈ registry.messages, (binding.2.fields.map Field.number).Nodup) :
    DistinctNumbers registry := by
  intro name type htype
  exact h _ (mem_messages_of_messageType htype)

/-- So no type that a type refers to has, if the type is found. -/
theorem DistinctNumbers.nodup_of_refers {registry : Registry} (h : DistinctNumbers registry)
    {name : String} {type child : MessageType} (htype : registry.messageType name = .ok type)
    (hchild : registry.Refers type child) : (child.fields.map Field.number).Nodup := by
  obtain ⟨name, hname⟩ := exists_messageType_of_refers htype hchild
  exact h name child hname

end Registry

/-! ## References and keys -/

/-- The type that the values of a map refer to, if they refer to one, is found. -/
def MapValue.Linked (registry : Registry) : MapValue → Prop
  | .scalar _ => True
  | .enum name => ∃ type, registry.codecEnumType name = .ok type
  | .message name => ∃ type, registry.codecMessageType name = .ok type

/-- The type that a field refers to, if it refers to one, is found. -/
def FieldKind.Linked (registry : Registry) : FieldKind → Prop
  | .scalar _ _ => True
  | .enum name _ => ∃ type, registry.codecEnumType name = .ok type
  | .message name _ => ∃ type, registry.codecMessageType name = .ok type
  | .map _ value => value.Linked registry

/-- The plain key of each field leads to its place. -/
def MessageType.PlainKeyed (type : MessageType) : Prop :=
  ∀ (i : Nat) (key : String), type.plainKeys[i]? = some key → type.indexOf? key = some i

namespace Registry

/-- All references in message types that are found lead to types that are found. -/
def Linked (registry : Registry) : Prop :=
  ∀ name type, registry.messageType name = .ok type → ∀ field ∈ type.fields,
    field.kind.Linked registry

/-- In all message types that are found, plain keys lead to the places of their fields. -/
def PlainKeyed (registry : Registry) : Prop :=
  ∀ name type, registry.messageType name = .ok type → type.PlainKeyed

end Registry

/-! ## A schema of trees -/

/-- A file with a type of trees, whose children are listed and named. -/
def treeFile : FileDescriptor where
  messages := [.mk "Tree"
    [{ name := "label", number := 1, typeCode := some 5 },
      { name := "children", number := 2, repeated := true, typeCode := some 11,
        typeName := ".Tree" },
      { name := "named", number := 3, repeated := true, typeCode := some 11,
        typeName := ".Tree.NamedEntry" }]
    [.mk "NamedEntry" [{ name := "key", number := 1, typeCode := some 9 },
      { name := "value", number := 2, typeCode := some 11, typeName := ".Tree" }] [] [] true]
    [] false]

/-- The type of trees. -/
def treeType : MessageType where
  name := "Tree"
  fields := [⟨1, "label", none, .scalar .int32 false⟩, ⟨2, "children", none, .message "Tree" true⟩,
    ⟨3, "named", none, .map .string (.message "Tree")⟩]

/-- The registry with the type of trees. -/
def treeRegistry (options : Options) : Registry where
  options
  pending := [("Tree", treeType)]
  mapEntries := [("Tree.NamedEntry", ⟨.string, .message "Tree"⟩)]
  listing := [⟨.root "Tree", false⟩]

namespace Registry

/-- The type of trees comes about by taking its file. -/
theorem reachable_tree (options : Options) : Reachable (treeRegistry options) :=
  .addFile (.empty options) (show Registry.addFile _ treeFile = .ok (treeRegistry options) from rfl)

/-- The fields of trees have distinct numbers. -/
theorem distinctNumbers_tree (options : Options) : DistinctNumbers (treeRegistry options) :=
  distinctNumbers_of_messages fun _ h => by
    rw [List.mem_singleton.1 h]
    decide

/-- Trees are the only type that is found. -/
theorem eq_treeType_of_messageType {options : Options} {name : String} {type : MessageType}
    (h : (treeRegistry options).messageType name = .ok type) : type = treeType := by
  have hmem := mem_messages_of_messageType h
  exact (Prod.mk.inj (List.mem_singleton.1 hmem)).2

/-- All references of trees are found. -/
theorem linked_tree (options : Options) : Linked (treeRegistry options) := by
  intro name type htype field hfield
  have htree : (treeRegistry options).codecMessageType "Tree" = .ok treeType := rfl
  rw [eq_treeType_of_messageType htype] at hfield
  simp only [treeType, List.mem_cons, List.not_mem_nil, or_false] at hfield
  rcases hfield with rfl | rfl | rfl
  · trivial
  · exact ⟨_, htree⟩
  · exact ⟨_, htree⟩

/-- The plain keys of trees lead to their fields. -/
theorem plainKeyed_tree (options : Options) : PlainKeyed (treeRegistry options) := by
  intro name type htype i key hkey
  rw [eq_treeType_of_messageType htype] at hkey ⊢
  have hkeys : treeType.plainKeys = ["label", "children", "named"] := rfl
  rw [hkeys] at hkey
  rcases i with _ | _ | _ | i <;> cases hkey <;> rfl

end Registry

end DynProto
