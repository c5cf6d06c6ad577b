import DynProto.Proofs.Name.Qualified
import DynProto.Proofs.Namespace.Nodes
import DynProto.Proofs.Registry.Reachable

/-!
# Adding names to a namespace

Inserting a name adds the nodes on its path, whether or not the name can be bound
(`hasNode_insert`), and binds the last of them if it was not bound. What a populated tree is bound
to was found for a name with this path, and a path determines its name; so the bindings that come
about do not depend on the order of the names (`Populated.boundAt?_eq_some_iff`), and whether the
names can be bound does not either (`populate_eq_ok_iff`). As ordered trees are known by their
nodes, a tree comes out the same for any two lists with the same names (`populate_congr`), and stays
as it is when names that are bound are added again (`populate_of_bound`). Trees that come about by
adding names to the empty tree are ordered (`ordered_empty`, `Ordered.populate`).

Where a name cannot be bound, the tree is the one from the names before it with the path of the
name touched (`exists_of_populate_error`). Its new nodes are not bound, so no look-up notices them,
and adding the same names again goes through the same names in vain.
-/

namespace DynProto.Tree

variable {α ε : Type} {lookup : String → Except ε α} {tree next last : Tree α}
  {names more : List QualifiedName} {name : QualifiedName} {path : List String}

/-! ## Nodes and order -/

/-- The nodes after a name was inserted, bound or not. -/
theorem hasNode_insert (lookup : String → Except ε α) (tree : Tree α) (name : QualifiedName)
    (path : List String) : (tree.insert lookup name).1.HasNode path ↔
      tree.HasNode path ∨ path <+: name.segments := by
  rcases insert_cases lookup tree name with ⟨_, _, hinsert⟩ | ⟨_, _, _, hinsert⟩ |
    ⟨_, _, _, hinsert⟩ <;> rw [hinsert]
  · exact hasNode_touch
  · rw [hasNode_bind, hasNode_touch, or_assoc, or_self]
  · exact hasNode_touch

/-- Inserting a name keeps the order. -/
theorem Ordered.insert (h : tree.Ordered) (lookup : String → Except ε α) (name : QualifiedName) :
    (tree.insert lookup name).1.Ordered := by
  rcases insert_cases lookup tree name with ⟨_, _, hinsert⟩ | ⟨_, _, _, hinsert⟩ |
    ⟨_, _, _, hinsert⟩ <;> rw [hinsert]
  · exact h.touch _
  · exact (h.touch _).bind _ _
  · exact h.touch _

/-- So does adding names, all of them or up to one that cannot be bound. -/
theorem Ordered.populate (h : tree.Ordered) (lookup : String → Except ε α)
    (names : List QualifiedName) : (tree.populate lookup names).1.Ordered := by
  induction names generalizing tree with
  | nil => exact h
  | cons name rest ih =>
    have hinsert := h.insert lookup name
    rw [Tree.populate]
    rcases hnext : tree.insert lookup name with ⟨next, error | ⟨⟩⟩ <;> rw [hnext] at hinsert
    · exact hinsert
    · exact ih hinsert

/-- Populating a tree starts with the first name and goes on with the tree that results. -/
theorem populate_cons_eq_ok_iff : tree.populate lookup (name :: names) = (last, .ok ()) ↔
    ∃ next, tree.insert lookup name = (next, .ok ()) ∧
      next.populate lookup names = (last, .ok ()) := by
  rw [populate]
  rcases tree.insert lookup name with ⟨next, error | ⟨⟩⟩
  · simp
  · simp

/-- Names are added one list after the other. -/
theorem populate_append (h : tree.populate lookup names = (next, .ok ()))
    (more : List QualifiedName) :
    tree.populate lookup (names ++ more) = next.populate lookup more := by
  induction names generalizing tree with
  | nil =>
    cases h
    rfl
  | cons name rest ih =>
    obtain ⟨middle, hinsert, hrest⟩ := populate_cons_eq_ok_iff.1 h
    rw [List.cons_append, populate, hinsert]
    exact ih hrest

/-- The nodes of a populated tree are those that were there and those on the paths of the names. -/
theorem hasNode_of_populate (h : tree.populate lookup names = (next, .ok ())) :
    next.HasNode path ↔ tree.HasNode path ∨ ∃ name ∈ names, path <+: name.segments := by
  induction names generalizing tree with
  | nil =>
    cases h
    simp
  | cons name rest ih =>
    obtain ⟨middle, hinsert, hrest⟩ := populate_cons_eq_ok_iff.1 h
    have hmiddle := hasNode_insert lookup tree name path
    rw [hinsert] at hmiddle
    simp only [ih hrest, hmiddle, or_assoc, List.mem_cons, exists_eq_or_imp]

/-! ## Bindings -/

/-- What is bound in a populated tree was bound before, or else was found for the name with its
path. -/
theorem Populated.boundAt?_eq_some_iff (h : Populated lookup names tree next) {a : α} :
    next.boundAt? path = some a ↔ tree.boundAt? path = some a ∨
      tree.boundAt? path = none ∧
        ∃ name ∈ names, name.segments = path ∧ lookup name.fullName = .ok a := by
  constructor
  · intro ha
    rcases hbefore : tree.boundAt? path with _ | b
    · rcases h.found path a ha with hfound | hfound
      · rw [hbefore] at hfound
        cases hfound
      · exact .inr ⟨rfl, hfound⟩
    · rw [h.kept path b hbefore] at ha
      exact .inl ha
  · rintro (hbefore | ⟨hbefore, name, hname, rfl, hlookup⟩)
    · exact h.kept path a hbefore
    · obtain ⟨b, hb⟩ := h.bound name hname
      rcases h.found _ b hb with hfound | ⟨other, _, hpath, hfound⟩
      · rw [hbefore] at hfound
        cases hfound
      · -- a path determines its name, so it was the same name that was looked up
        rw [QualifiedName.fullName_eq_of_segments_eq hpath, hlookup] at hfound
        cases hfound
        exact hb

/-- The bindings that come about do not depend on the order of the names. -/
theorem Populated.boundAt?_congr (h : Populated lookup names tree next)
    (h' : Populated lookup more tree last) (hsame : ∀ name, name ∈ more ↔ name ∈ names)
    (path : List String) : next.boundAt? path = last.boundAt? path := by
  refine Option.ext fun a => ?_
  rw [h.boundAt?_eq_some_iff, h'.boundAt?_eq_some_iff]
  simp only [hsame]

/-- Names can be bound exactly if each of them is bound already or is found. -/
theorem populate_eq_ok_iff : (tree.populate lookup names).2 = .ok () ↔
    ∀ name ∈ names, (∃ a, tree.boundAt? name.segments = some a) ∨
      ∃ a, lookup name.fullName = .ok a := by
  induction names generalizing tree with
  | nil => simp [populate]
  | cons name rest ih =>
    rw [populate, List.forall_mem_cons]
    rcases insert_cases lookup tree name with ⟨a, hbound, hinsert⟩ |
      ⟨a, hbound, hlookup, hinsert⟩ | ⟨error, hbound, hlookup, hinsert⟩
    · have hrest : ((tree.touch name.segments).populate lookup rest).2 = .ok () ↔ _ := ih
      simp only [boundAt?_touch] at hrest
      rw [hinsert, hrest]
      exact ⟨fun h => ⟨.inl ⟨a, hbound⟩, h⟩, fun h => h.2⟩
    · have hnext := populated_insert hinsert
      rw [hinsert, ih]
      constructor
      · refine fun h => ⟨.inr ⟨a, hlookup⟩, fun other hother => ?_⟩
        rcases h other hother with ⟨b, hb⟩ | hfound
        · rcases hnext.found _ b hb with hbefore | ⟨first, hfirst, hpath, hfound⟩
          · exact .inl ⟨b, hbefore⟩
          · rw [QualifiedName.fullName_eq_of_segments_eq hpath] at hfound
            exact .inr ⟨b, hfound⟩
        · exact .inr hfound
      · refine fun h other hother => (h.2 other hother).imp_left ?_
        rintro ⟨b, hb⟩
        exact ⟨b, hnext.kept _ b hb⟩
    · rw [hinsert]
      simp [hbound, hlookup]

/-! ## Adding names again -/

/-- A name that is bound is inserted without a change. -/
theorem insert_of_bound (h : tree.Ordered) {a : α} (hbound : tree.boundAt? name.segments = some a) :
    tree.insert lookup name = (tree, .ok ()) := by
  rcases insert_cases lookup tree name with ⟨_, _, hinsert⟩ | ⟨_, hnone, _⟩ | ⟨_, hnone, _⟩
  · rw [hinsert, touch_of_hasNode h (hasNode_of_boundAt? hbound)]
  · rw [hbound] at hnone
    cases hnone
  · rw [hbound] at hnone
    cases hnone

/-- Names that are bound are added without a change, and nothing is looked up for them. -/
theorem populate_of_bound (h : tree.Ordered)
    (hbound : ∀ name ∈ names, ∃ a, tree.boundAt? name.segments = some a) :
    tree.populate lookup names = (tree, .ok ()) := by
  induction names with
  | nil => rfl
  | cons name rest ih =>
    obtain ⟨⟨a, ha⟩, hrest⟩ := List.forall_mem_cons.1 hbound
    exact populate_cons_eq_ok_iff.2 ⟨tree, insert_of_bound h ha, ih hrest⟩

/-- Lists with the same names make the same tree out of an ordered one. -/
theorem populate_congr (h : tree.Ordered) (hnext : tree.populate lookup names = (next, .ok ()))
    (hsame : ∀ name, name ∈ more ↔ name ∈ names) :
    tree.populate lookup more = (next, .ok ()) := by
  have hok : (tree.populate lookup more).2 = .ok () := by
    refine populate_eq_ok_iff.2 fun name hname => ?_
    exact populate_eq_ok_iff.1 (congrArg Prod.snd hnext) name ((hsame name).1 hname)
  have hlast : tree.populate lookup more = ((tree.populate lookup more).1, .ok ()) :=
    Prod.ext rfl hok
  have hordered := h.populate lookup names
  rw [hnext] at hordered
  have htree : (tree.populate lookup more).1 = next := by
    refine eq_of_node?_eq (h.populate lookup more) hordered fun path => ?_
    apply node?_eq_of_hasNode_iff
    · rw [hasNode_of_populate hlast, hasNode_of_populate hnext]
      simp only [hsame]
    · exact ((populated_populate hnext).boundAt?_congr (populated_populate hlast) hsame path).symm
  rw [hlast, htree]

/-! ## The nodes that are added -/

/-- The paths on the way to the names at which a tree has no node. -/
def newPaths (tree : Tree α) (names : List QualifiedName) : Finset (List String) :=
  (names.flatMap fun name => name.segments.inits).toFinset.filter fun path => ¬ tree.HasNode path

/-- The new paths are those on the way to a name, each once, whatever names they lead to. -/
theorem mem_newPaths : path ∈ tree.newPaths names ↔
    (∃ name ∈ names, path <+: name.segments) ∧ ¬ tree.HasNode path := by
  rw [newPaths, Finset.mem_filter, List.mem_toFinset, List.mem_flatMap]
  simp only [List.mem_inits]

/-- One tree comes about from another one by adding names: it is populated with them, has the nodes
of the other one and one node for each path on the way to a name. -/
structure Extended (lookup : String → Except ε α) (names : List QualifiedName)
    (tree next : Tree α) : Prop extends Populated lookup names tree next where
  /-- The nodes are those that were there, and one for each path on the way to a name. -/
  nodes : ∀ path, next.HasNode path ↔ tree.HasNode path ∨
    ∃ name ∈ names, path ≠ [] ∧ path <+: name.segments
  /-- The nodes below the root are as many more as there are new paths. -/
  descendants : next.descendants = tree.descendants + (tree.newPaths names).card

/-- An ordered tree is extended by adding names. -/
theorem extended_populate (h : tree.Ordered) (hnext : tree.populate lookup names = (next, .ok ())) :
    Extended lookup names tree next where
  toPopulated := populated_populate hnext
  nodes path := by
    rw [hasNode_of_populate hnext]
    constructor
    · rintro (hnode | ⟨name, hname, hbegins⟩)
      · exact .inl hnode
      · by_cases hnil : path = []
        · exact .inl (hnil ▸ hasNode_nil tree)
        · exact .inr ⟨name, hname, hnil, hbegins⟩
    · exact Or.imp_right fun ⟨name, hname, _, hbegins⟩ => ⟨name, hname, hbegins⟩
  descendants := by
    have hordered := h.populate lookup names
    rw [hnext] at hordered
    refine descendants_eq_add_card h hordered (fun path hpath => (mem_newPaths.1 hpath).2) ?_
    intro path
    rw [hasNode_of_populate hnext, mem_newPaths]
    by_cases hnode : tree.HasNode path <;> simp [hnode]

/-! ## Names that cannot be bound -/

/-- Where names cannot all be bound there is a first one that is neither bound nor found, and the
tree is the one from the names before it with its path touched. -/
theorem exists_of_populate_error {error : ε}
    (h : tree.populate lookup names = (next, .error error)) :
    ∃ front name back middle, names = front ++ name :: back ∧
      tree.populate lookup front = (middle, .ok ()) ∧
      middle.boundAt? name.segments = none ∧ lookup name.fullName = .error error ∧
      next = middle.touch name.segments := by
  induction names generalizing tree with
  | nil => cases h
  | cons name rest ih =>
    rw [populate] at h
    rcases insert_cases lookup tree name with ⟨_, _, hinsert⟩ | ⟨_, _, _, hinsert⟩ |
      ⟨found, hbound, hlookup, hinsert⟩ <;> rw [hinsert] at h
    case inr.inr =>
      cases h
      exact ⟨[], name, rest, tree, rfl, rfl, hbound, hlookup, rfl⟩
    all_goals
      obtain ⟨front, other, back, middle, rfl, hfront, hrest⟩ := ih h
      exact ⟨name :: front, other, back, middle, rfl,
        populate_cons_eq_ok_iff.2 ⟨_, hinsert, hfront⟩, hrest⟩

/-- Names that could not all be added fail again in the same way, and leave the tree as it is. -/
theorem populate_of_populate_error (h : tree.Ordered) {error : ε}
    (hnext : tree.populate lookup names = (next, .error error)) :
    next.populate lookup names = (next, .error error) := by
  have hordered := h.populate lookup names
  rw [hnext] at hordered
  obtain ⟨front, name, back, middle, rfl, hfront, hbound, hlookup, rfl⟩ :=
    exists_of_populate_error hnext
  have hagain : (middle.touch name.segments).populate lookup front
      = (middle.touch name.segments, .ok ()) := by
    refine populate_of_bound hordered fun other hother => ?_
    rw [boundAt?_touch]
    exact (populated_populate hfront).bound other hother
  have hnode : (middle.touch name.segments).HasNode name.segments :=
    hasNode_touch.2 (.inr (List.prefix_refl _))
  rw [populate_append hagain, populate]
  rcases insert_cases lookup (middle.touch name.segments) name with ⟨_, hbound', _⟩ |
    ⟨_, _, hfound, _⟩ | ⟨_, _, hfound, hinsert⟩
  · rw [boundAt?_touch, hbound] at hbound'
    cases hbound'
  · rw [hlookup] at hfound
    cases hfound
  · rw [hlookup] at hfound
    cases hfound
    rw [hinsert, touch_of_hasNode hordered hnode]

/-- What is looked up by a dotted path depends on the bindings alone. -/
theorem lookup?_congr (h : ∀ path, tree.boundAt? path = next.boundAt? path) (path : String) :
    tree.lookup? path = next.lookup? path := by
  by_cases hpath : Dotted.withoutLeadingDot path = ""
  · rw [lookup?_eq_bound tree hpath, lookup?_eq_bound next hpath]
    exact h []
  · rw [lookup?_eq_boundAt? tree hpath, lookup?_eq_boundAt? next hpath, h]

end DynProto.Tree

namespace DynProto.Registry

variable {registry : Registry} {tree next : Namespace} {names : List QualifiedName}

/-! ## Namespaces of message types -/

/-- No message type is found but for the reason that there is none with the name. -/
theorem eq_unknownType_of_binding {name : String} {error : SchemaError}
    (h : registry.binding name = .error error) :
    error = .unknownType (Dotted.withoutLeadingDot name) := by
  rw [binding, messageType_eq] at h
  rcases hfound : registry.messages.lookup (Dotted.withoutLeadingDot name) with _ | type <;>
    rw [hfound] at h <;> cases h
  rfl

/-! ### Three small namespaces -/

/-- A file with a message type, and one with a message type inside a package of the same name. -/
def packageFiles : List FileDescriptor :=
  [{ messages := [.mk "p" [] [] [] false] },
    { package := "p", messages := [.mk "M" [] [] [] false] }]

/-- The registry after the two files. -/
def packageRegistry : Registry where
  pending := [("p.M", ⟨"p.M", []⟩), ("p", ⟨"p", []⟩)]
  listing := [⟨.root "p", false⟩, ⟨.within (.root "p") "M", false⟩]

/-- The inner type, the type of its package's name, and the inner type once more. -/
def packageNames : List QualifiedName :=
  [.within (.root "p") "M", .root "p", .within (.root "p") "M"]

/-- The inner type, and a name that there is no type for before one that there is. -/
def missingNames : List QualifiedName :=
  [.within (.root "p") "M", .within (.root "q") "X", .root "p"]

/-- A namespace with an unbound node and a node of another registry below it. -/
def plantedNames : Namespace :=
  .node none [("p", .node none [("N", .node (some ⟨treeRegistry {}, treeType⟩) [])])]

/-- The namespace with both message types added. -/
def grownNames : Namespace :=
  .node none [("p", .node (some ⟨packageRegistry, ⟨"p", []⟩⟩)
    [("M", .node (some ⟨packageRegistry, ⟨"p.M", []⟩⟩) []),
      ("N", .node (some ⟨treeRegistry {}, treeType⟩) [])])]

/-- The first namespace with the inner message type added, and then a name that there is no type
for. -/
def brokenNames : Namespace :=
  .node none [("p", .node none [("M", .node (some ⟨packageRegistry, ⟨"p.M", []⟩⟩) []),
      ("N", .node (some ⟨treeRegistry {}, treeType⟩) [])]),
    ("q", .node none [("X", .empty)])]

/-- The first one is ordered, having but one child at each node. -/
theorem ordered_plantedNames : plantedNames.Ordered := by
  have hleaf : (Tree.node (some ⟨treeRegistry {}, treeType⟩) [] : Namespace).Ordered :=
    .node List.Pairwise.nil fun _ h => absurd h List.not_mem_nil
  have hmiddle : (Tree.node none [("N", Tree.node (some ⟨treeRegistry {}, treeType⟩) [])]
      : Namespace).Ordered :=
    .node (List.pairwise_singleton _ _) (List.forall_mem_singleton.2 hleaf)
  exact .node (List.pairwise_singleton _ _) (List.forall_mem_singleton.2 hmiddle)

/-! ### What adding names does -/

/-- Adding names to an ordered namespace adds the missing nodes on the way to them and binds the
names that are not bound to the message types found for them; every other binding stays. Adding any
of the names once more changes nothing, and lists with the same names, in any order and however
often, make the same namespace. -/
theorem populate_extended (h : tree.Ordered)
    (hnext : registry.populate tree names = (next, .ok ())) :
    Tree.Extended registry.binding names tree next ∧
    (∀ more, (∀ name ∈ more, name ∈ names) → registry.populate next more = (next, .ok ())) ∧
    ∀ more, (∀ name, name ∈ more ↔ name ∈ names) →
      registry.populate tree more = (next, .ok ()) := by
  have hextended := Tree.extended_populate h hnext
  have hordered := h.populate registry.binding names
  rw [show tree.populate registry.binding names = (next, .ok ()) from hnext] at hordered
  refine ⟨hextended, fun more hmore => ?_, fun more hsame => Tree.populate_congr h hnext hsame⟩
  exact Tree.populate_of_bound hordered fun name hname => hextended.bound name (hmore name hname)

/-- A package that is a message type as well is bound at the node that its inner type went
through. -/
theorem populate_extended_package :
    packageFiles.foldlM Registry.addFile {} = .ok packageRegistry ∧
      plantedNames.Ordered ∧
      packageRegistry.populate plantedNames packageNames = (grownNames, .ok ()) ∧
      Tree.Extended packageRegistry.binding packageNames plantedNames grownNames ∧
      (∀ more, (∀ name ∈ more, name ∈ packageNames) →
        packageRegistry.populate grownNames more = (grownNames, .ok ())) ∧
      ∀ more, (∀ name, name ∈ more ↔ name ∈ packageNames) →
        packageRegistry.populate plantedNames more = (grownNames, .ok ()) :=
  ⟨rfl, ordered_plantedNames, rfl, populate_extended ordered_plantedNames rfl⟩

/-- Adding names to an ordered namespace fails at the first of them that is neither bound nor the
name of a message type. Look-ups then give what they give after the names before it were added: the
only difference is made by unbound nodes on the way to the name, where there were none. All nodes
and bindings from before are still there, and adding the names again fails with the same error and
changes nothing. -/
theorem populate_interrupted (h : tree.Ordered) {error : SchemaError}
    (hnext : registry.populate tree names = (next, .error error)) :
    ∃ front name back middle, names = front ++ name :: back ∧
      registry.populate tree front = (middle, .ok ()) ∧
      error = .unknownType (Dotted.withoutLeadingDot name.fullName) ∧
      (∀ path, next.lookup? path = middle.lookup? path) ∧
      (∀ path, next.node? path
        = if path <+: name.segments ∧ ¬ middle.HasNode path then some none
          else middle.node? path) ∧
      (∀ path, tree.HasNode path → next.HasNode path) ∧
      (∀ path binding, tree.boundAt? path = some binding →
        next.boundAt? path = some binding) ∧
      registry.populate next names = (next, .error error) := by
  obtain ⟨front, name, back, middle, rfl, hfront, hbound, hlookup, rfl⟩ :=
    Tree.exists_of_populate_error hnext
  refine ⟨front, name, back, middle, rfl, hfront, eq_unknownType_of_binding hlookup, ?_, ?_, ?_, ?_,
    ?_⟩
  · exact Tree.lookup?_congr fun path => Tree.boundAt?_touch name.segments path middle
  · intro path
    rw [Tree.node?_touch]
    by_cases hbegins : path <+: name.segments
    · by_cases hnode : middle.HasNode path
      · simp [hbegins, hnode, Tree.node?_of_hasNode hnode]
      · have hnone := Tree.node?_of_not_hasNode hnode
        simp [hbegins, hnode, Tree.boundAt?_eq_join, hnone]
    · simp [hbegins]
  · intro path hnode
    exact Tree.hasNode_touch.2 (.inl ((Tree.hasNode_of_populate hfront).2 (.inl hnode)))
  · intro path binding hbinding
    rw [Tree.boundAt?_touch]
    exact (Tree.populated_populate hfront).kept path binding hbinding
  · exact Tree.populate_of_populate_error h hnext

/-- A name without a type leaves its nodes behind and hides nothing. -/
theorem populate_interrupted_missing :
    packageFiles.foldlM Registry.addFile {} = .ok packageRegistry ∧
      plantedNames.Ordered ∧
      packageRegistry.populate plantedNames missingNames
        = (brokenNames, .error (.unknownType "q.X")) ∧
      ∃ front name back middle, missingNames = front ++ name :: back ∧
        packageRegistry.populate plantedNames front = (middle, .ok ()) ∧
        SchemaError.unknownType "q.X" = .unknownType (Dotted.withoutLeadingDot name.fullName) ∧
        (∀ path, brokenNames.lookup? path = middle.lookup? path) ∧
        (∀ path, brokenNames.node? path
          = if path <+: name.segments ∧ ¬ middle.HasNode path then some none
            else middle.node? path) ∧
        (∀ path, plantedNames.HasNode path → brokenNames.HasNode path) ∧
        (∀ path binding, plantedNames.boundAt? path = some binding →
          brokenNames.boundAt? path = some binding) ∧
        packageRegistry.populate brokenNames missingNames
          = (brokenNames, .error (.unknownType "q.X")) :=
  ⟨rfl, ordered_plantedNames, rfl, populate_interrupted ordered_plantedNames rfl⟩

end DynProto.Registry
