import DynProto.Namespace
import DynProto.Proofs.OrderedMap

/-!
# What a namespace is bound to

A tree of names is known by what is bound at each path (`Tree.boundAt?`). Inserting a name binds its
own path, unless that is bound already, and no other (`Tree.populated_insert`). So a tree that was
populated is bound at the path of every name that was inserted, and whatever is bound in it was
found for a name with this path (`Tree.populated_populate`).
-/

namespace DynProto.Tree

variable {α ε : Type} {tree next : Tree α} {path : List String}

/-! ## Bindings by path -/

/-- What is bound at the end of a path. -/
def boundAt? (tree : Tree α) (path : List String) : Option α :=
  (tree.at? path).bind bound

/-- What is bound at no distance is bound to the node itself. -/
@[simp] theorem boundAt?_nil (tree : Tree α) : tree.boundAt? [] = tree.bound := rfl

/-- What is bound further down is bound below a child. -/
theorem boundAt?_cons (tree : Tree α) (segment : String) (path : List String) :
    tree.boundAt? (segment :: path)
      = (tree.child? segment).bind fun child => child.boundAt? path := by
  unfold boundAt? at?
  rw [List.foldlM_cons]
  cases tree.child? segment <;> rfl

/-- Nothing is bound in the empty tree. -/
@[simp] theorem boundAt?_empty (path : List String) : (empty : Tree α).boundAt? path = none := by
  cases path <;> rfl

/-- A missing child counts as an empty tree. -/
theorem boundAt?_getD_empty (child : Option (Tree α)) (path : List String) :
    (child.getD empty).boundAt? path = child.bind fun child => child.boundAt? path := by
  cases child with
  | none => exact boundAt?_empty path
  | some child => rfl

/-- A change of the node at the end of a path that leaves its children as they are changes what is
bound there and nowhere else. -/
theorem boundAt?_modifyAt (f : Tree α → Tree α) (change : Option α → Option α)
    (hbound : ∀ tree, (f tree).bound = change tree.bound)
    (hchildren : ∀ tree, (f tree).children = tree.children) (path other : List String)
    (tree : Tree α) :
    (tree.modifyAt f path).boundAt? other
      = if other = path then change (tree.boundAt? path) else tree.boundAt? other := by
  induction path generalizing other tree with
  | nil =>
    cases other with
    | nil => exact hbound tree
    | cons segment other =>
      rw [modifyAt, boundAt?_cons, boundAt?_cons, if_neg (List.cons_ne_nil segment other), child?,
        hchildren, child?]
  | cons segment path ih =>
    cases other with
    | nil => exact (if_neg (List.cons_ne_nil segment path).symm).symm
    | cons segment' other =>
      have hchild : (tree.modifyAt f (segment :: path)).child? segment'
          = OrderedMap.get? segment' (OrderedMap.insert segment
              (((tree.child? segment).getD empty).modifyAt f path) tree.children) := rfl
      rw [boundAt?_cons, hchild]
      by_cases hsegment : segment' = segment
      · subst hsegment
        rw [OrderedMap.get?_insert_self, Option.bind_some, ih, boundAt?_getD_empty,
          boundAt?_getD_empty, ← boundAt?_cons, ← boundAt?_cons]
        simp only [List.cons.injEq, true_and]
      · have hne : segment' :: other ≠ segment :: path := by simp [hsegment]
        rw [OrderedMap.get?_insert_of_ne hsegment, if_neg hne, boundAt?_cons]
        rfl

/-- Adding the nodes of a path binds nothing. -/
@[simp] theorem boundAt?_touch (path other : List String) (tree : Tree α) :
    (tree.touch path).boundAt? other = tree.boundAt? other := by
  rw [touch, boundAt?_modifyAt id id (fun _ => rfl) (fun _ => rfl)]
  split_ifs with heq
  · rw [heq]
    rfl
  · rfl

/-- Binding a path binds this path alone. -/
theorem boundAt?_bind (path other : List String) (a : α) (tree : Tree α) :
    (tree.bind path a).boundAt? other = if other = path then some a else tree.boundAt? other :=
  boundAt?_modifyAt (fun tree => node (some a) tree.children) (fun _ => some a) (fun _ => rfl)
    (fun _ => rfl) path other tree

/-- Looking up a dotted path that names something leads along its segments. -/
theorem lookup?_eq_boundAt? (tree : Tree α) {path : String}
    (h : Dotted.withoutLeadingDot path ≠ "") :
    tree.lookup? path = tree.boundAt? (Dotted.segments (Dotted.withoutLeadingDot path)) := by
  have hempty : (Dotted.withoutLeadingDot path).isEmpty = false := by
    rw [Bool.eq_false_iff, ne_eq, String.isEmpty_iff]
    exact h
  unfold lookup? resolve?
  simp only [hempty, Bool.false_eq_true, if_false]
  rfl

/-- Looking up a path that names nothing leads to the node itself. -/
theorem lookup?_eq_bound (tree : Tree α) {path : String} (h : Dotted.withoutLeadingDot path = "") :
    tree.lookup? path = tree.bound := by
  unfold lookup? resolve?
  rw [h]
  rfl

/-! ## Populating a tree -/

variable {lookup : String → Except ε α} {names more : List QualifiedName} {name : QualifiedName}

/-- One tree comes about from another one by binding names: what is bound now was bound before or
was found for a name with this path, what was bound before is bound as before, and the path of every
name is bound. -/
structure Populated (lookup : String → Except ε α) (names : List QualifiedName)
    (tree next : Tree α) : Prop where
  /-- What is bound was bound before or was found. -/
  found : ∀ path a, next.boundAt? path = some a → tree.boundAt? path = some a ∨
    ∃ name ∈ names, name.segments = path ∧ lookup name.fullName = .ok a
  /-- What was bound before stays. -/
  kept : ∀ path a, tree.boundAt? path = some a → next.boundAt? path = some a
  /-- Every name is bound. -/
  bound : ∀ name ∈ names, ∃ a, next.boundAt? name.segments = some a

/-- No names change nothing. -/
theorem Populated.refl (lookup : String → Except ε α) (tree : Tree α) :
    Populated lookup [] tree tree where
  found _ _ := .inl
  kept _ _ := id
  bound _ hname := absurd hname List.not_mem_nil

/-- Names are bound one list after the other. -/
theorem Populated.trans {last : Tree α} (h : Populated lookup names tree next)
    (h' : Populated lookup more next last) : Populated lookup (names ++ more) tree last where
  found path a ha := by
    rcases h'.found path a ha with ha | ⟨name, hname, hpath⟩
    · rcases h.found path a ha with ha | ⟨name, hname, hpath⟩
      · exact .inl ha
      · exact .inr ⟨name, List.mem_append_left more hname, hpath⟩
    · exact .inr ⟨name, List.mem_append_right names hname, hpath⟩
  kept path a ha := h'.kept path a (h.kept path a ha)
  bound name hname := by
    rcases List.mem_append.1 hname with hname | hname
    · obtain ⟨a, ha⟩ := h.bound name hname
      exact ⟨a, h'.kept _ a ha⟩
    · exact h'.bound name hname

/-- What inserting a name does: nothing is bound if its path is bound before; otherwise the path is
bound to what is found for the name, or the look-up fails and its nodes stay unbound. -/
theorem insert_cases (lookup : String → Except ε α) (tree : Tree α) (name : QualifiedName) :
    (∃ a, tree.boundAt? name.segments = some a ∧
      tree.insert lookup name = (tree.touch name.segments, .ok ())) ∨
    (∃ a, tree.boundAt? name.segments = none ∧ lookup name.fullName = .ok a ∧
      tree.insert lookup name = ((tree.touch name.segments).bind name.segments a, .ok ())) ∨
    ∃ error, tree.boundAt? name.segments = none ∧ lookup name.fullName = .error error ∧
      tree.insert lookup name = (tree.touch name.segments, .error error) := by
  have htouched := boundAt?_touch name.segments name.segments tree
  rw [boundAt?] at htouched
  unfold insert
  simp only [htouched]
  rcases tree.boundAt? name.segments with _ | a
  · rcases lookup name.fullName with error | a
    · exact .inr (.inr ⟨error, rfl, rfl, rfl⟩)
    · exact .inr (.inl ⟨a, rfl, rfl, rfl⟩)
  · exact .inl ⟨a, rfl, rfl⟩

/-- A name that is inserted is bound: nothing changes if it was bound before, and else its path is
bound to what is found for it. -/
theorem populated_insert (h : tree.insert lookup name = (next, .ok ())) :
    Populated lookup [name] tree next := by
  rcases insert_cases lookup tree name with ⟨b, hbound, hinsert⟩ | ⟨b, hbound, hlookup, hinsert⟩ |
    ⟨error, _, _, hinsert⟩ <;> rw [h] at hinsert <;> cases hinsert
  · constructor
    · intro path a ha
      rw [boundAt?_touch] at ha
      exact .inl ha
    · intro path a ha
      rw [boundAt?_touch, ha]
    · intro other hother
      rw [List.mem_singleton.1 hother]
      exact ⟨b, (boundAt?_touch _ _ tree).trans hbound⟩
  · have hset : ∀ path, ((tree.touch name.segments).bind name.segments b).boundAt? path
        = if path = name.segments then some b else tree.boundAt? path := by
      intro path
      rw [boundAt?_bind, boundAt?_touch]
    constructor
    · intro path a ha
      rw [hset] at ha
      split_ifs at ha with hpath
      · cases ha
        exact .inr ⟨name, List.mem_singleton_self name, hpath.symm, hlookup⟩
      · exact .inl ha
    · intro path a ha
      have hne : path ≠ name.segments := by
        rintro rfl
        rw [hbound] at ha
        cases ha
      rw [hset, if_neg hne, ha]
    · intro other hother
      rw [List.mem_singleton.1 hother]
      exact ⟨b, (hset _).trans (if_pos rfl)⟩

/-- A name that is found is inserted. -/
theorem insert_of_lookup (tree : Tree α) {a : α} (h : lookup name.fullName = .ok a) :
    (tree.insert lookup name).2 = .ok () := by
  unfold insert
  simp only
  split
  · rfl
  · rw [h]

/-- A tree that was populated is bound accordingly. -/
theorem populated_populate (h : tree.populate lookup names = (next, .ok ())) :
    Populated lookup names tree next := by
  induction names generalizing tree with
  | nil =>
    cases h
    exact .refl lookup next
  | cons name rest ih =>
    rw [populate] at h
    rcases hinsert : tree.insert lookup name with ⟨middle, error | ⟨⟩⟩ <;> rw [hinsert] at h
    · cases h
    · exact (populated_insert hinsert).trans (ih h)

/-- A tree is populated if all names are found. -/
theorem populate_of_lookup (tree : Tree α)
    (h : ∀ name ∈ names, ∃ a, lookup name.fullName = .ok a) :
    (tree.populate lookup names).2 = .ok () := by
  induction names generalizing tree with
  | nil => rfl
  | cons name rest ih =>
    obtain ⟨⟨a, ha⟩, hrest⟩ := List.forall_mem_cons.1 h
    have hinsert := insert_of_lookup tree ha
    rw [populate]
    rcases hnext : tree.insert lookup name with ⟨next, outcome⟩
    rw [hnext] at hinsert
    cases hinsert
    exact ih next hrest

end DynProto.Tree
