import DynProto.Proofs.Namespace

/-!
# The nodes of a namespace

A tree of names is `Ordered` if the children of each of its nodes are in ascending order of their
segments, as the children of a node are wherever a tree is built (`ordered_modifyAt`). Such a tree
is known by what stands at each path, no node or one that is or is not bound (`node?`): ordered
trees with the same nodes are equal (`eq_of_node?_eq`).

A change at the end of a path adds the nodes on the way there and touches nothing else
(`node?_modifyAt`). So touching a path that has its node already leaves an ordered tree as it is
(`touch_of_hasNode`).

The number of nodes below the root of an ordered tree is the number of its paths, which are distinct
(`length_paths`, `nodup_paths`); hence a tree that has the nodes of another one and some more has as
many more descendants (`descendants_eq_add_card`).
-/

namespace DynProto.Tree

variable {α : Type} {tree next : Tree α} {path other : List String}

/-! ## Nodes by path -/

/-- What stands at the end of a path: nothing, or a node with or without a binding. -/
def node? (tree : Tree α) (path : List String) : Option (Option α) :=
  (tree.at? path).map bound

/-- There is a node at the end of a path. -/
def HasNode (tree : Tree α) (path : List String) : Prop :=
  (tree.at? path).isSome

instance (tree : Tree α) (path : List String) : Decidable (tree.HasNode path) :=
  inferInstanceAs (Decidable ((tree.at? path).isSome = true))

/-- What stands further down stands below a child. -/
theorem node?_cons (tree : Tree α) (segment : String) (path : List String) :
    tree.node? (segment :: path)
      = (tree.child? segment).bind fun child => child.node? path := by
  unfold node? at?
  rw [List.foldlM_cons]
  cases tree.child? segment <;> rfl

/-- In the empty tree nothing stands further down. -/
@[simp] theorem node?_empty_cons (segment : String) (path : List String) :
    (empty : Tree α).node? (segment :: path) = none := by
  rw [node?_cons]
  rfl

/-- What is bound at a path is what is bound to the node there. -/
theorem boundAt?_eq_join (tree : Tree α) (path : List String) :
    tree.boundAt? path = (tree.node? path).join := by
  unfold boundAt? node?
  cases tree.at? path <;> rfl

/-- There is a node where something stands. -/
theorem hasNode_iff : tree.HasNode path ↔ (tree.node? path).isSome := by
  rw [HasNode, node?, Option.isSome_map]

/-- At a node stands what is bound there. -/
theorem node?_of_hasNode (h : tree.HasNode path) :
    tree.node? path = some (tree.boundAt? path) := by
  obtain ⟨found, hfound⟩ := Option.isSome_iff_exists.1 (hasNode_iff.1 h)
  rw [boundAt?_eq_join, hfound]
  rfl

/-- Where there is no node nothing stands. -/
theorem node?_of_not_hasNode (h : ¬ tree.HasNode path) : tree.node? path = none := by
  rwa [hasNode_iff, Option.not_isSome_iff_eq_none] at h

/-- What is bound is bound to a node. -/
theorem hasNode_of_boundAt? {a : α} (h : tree.boundAt? path = some a) : tree.HasNode path := by
  by_contra hnode
  rw [boundAt?_eq_join, node?_of_not_hasNode hnode] at h
  cases h

/-- What stands at a path is whether there is a node and what is bound there. -/
theorem node?_eq_of_hasNode_iff (hnode : tree.HasNode path ↔ next.HasNode path)
    (hbound : tree.boundAt? path = next.boundAt? path) : tree.node? path = next.node? path := by
  by_cases h : tree.HasNode path
  · rw [node?_of_hasNode h, node?_of_hasNode (hnode.1 h), hbound]
  · rw [node?_of_not_hasNode h, node?_of_not_hasNode fun h' => h (hnode.2 h')]

/-- There is a node at no distance. -/
@[simp] theorem hasNode_nil (tree : Tree α) : tree.HasNode [] := rfl

/-- A node further down is one below a child. -/
theorem hasNode_cons {segment : String} : tree.HasNode (segment :: path) ↔
    ∃ child, tree.child? segment = some child ∧ child.HasNode path := by
  rw [hasNode_iff, node?_cons]
  rcases tree.child? segment with _ | child
  · simp
  · simp [hasNode_iff]

/-- On the way to a node there are nodes. -/
theorem HasNode.ancestor (h : tree.HasNode path) (hbegins : other <+: path) :
    tree.HasNode other := by
  obtain ⟨rest, rfl⟩ := hbegins
  unfold HasNode at? at h ⊢
  rw [List.foldlM_append] at h
  exact Option.isSome_of_isSome_bind h

/-! ## Changes at a path -/

/-- A change of the node at the end of a path that leaves its children as they are adds the nodes on
the way there, and changes nothing else. -/
theorem node?_modifyAt (f : Tree α → Tree α) (change : Option α → Option α)
    (hbound : ∀ tree, (f tree).bound = change tree.bound)
    (hchildren : ∀ tree, (f tree).children = tree.children) (path other : List String)
    (tree : Tree α) :
    (tree.modifyAt f path).node? other
      = if other = path then some (change (tree.boundAt? path))
        else if other <+: path then some (tree.boundAt? other) else tree.node? other := by
  induction path generalizing other tree with
  | nil =>
    cases other with
    | nil => exact congrArg some (hbound tree)
    | cons segment other =>
      have hnot : ¬ segment :: other <+: [] := by simp
      rw [modifyAt, if_neg (List.cons_ne_nil segment other), if_neg hnot, node?_cons, node?_cons,
        child?, hchildren, child?]
  | cons segment path ih =>
    cases other with
    | nil =>
      rw [if_neg (List.cons_ne_nil segment path).symm, if_pos List.nil_prefix]
      rfl
    | cons segment' other =>
      have hchild : (tree.modifyAt f (segment :: path)).child? segment'
          = OrderedMap.get? segment' (OrderedMap.insert segment
              (((tree.child? segment).getD empty).modifyAt f path) tree.children) := rfl
      rw [node?_cons, hchild]
      by_cases hsegment : segment' = segment
      · subst hsegment
        have hbelow : ∀ path, ((tree.child? segment').getD empty).boundAt? path
            = tree.boundAt? (segment' :: path) := by
          intro path
          rw [boundAt?_getD_empty, ← boundAt?_cons]
        rw [OrderedMap.get?_insert_self, Option.bind_some, ih, hbelow, hbelow]
        simp only [List.cons.injEq, true_and, List.cons_prefix_cons]
        split_ifs with heq hbegins
        · rfl
        · rfl
        · -- off the path, so that nothing stands there in a missing child either
          rw [node?_cons]
          rcases tree.child? segment' with _ | child
          · cases other with
            | nil => exact absurd List.nil_prefix hbegins
            | cons => simp
          · rfl
      · have hne : segment' :: other ≠ segment :: path := by simp [hsegment]
        have hnot : ¬ segment' :: other <+: segment :: path := by
          simp [List.cons_prefix_cons, hsegment]
        rw [OrderedMap.get?_insert_of_ne hsegment, if_neg hne, if_neg hnot, node?_cons]
        rfl

/-- Adding the nodes of a path adds those that are missing, bound to nothing. -/
theorem node?_touch (path other : List String) (tree : Tree α) :
    (tree.touch path).node? other
      = if other <+: path then some (tree.boundAt? other) else tree.node? other := by
  rw [touch, node?_modifyAt id id (fun _ => rfl) (fun _ => rfl)]
  split_ifs with heq hbegins hbegins
  · rw [heq]
    rfl
  · exact absurd (heq ▸ List.prefix_refl _) hbegins
  · rfl
  · rfl

/-- The nodes after a path was touched. -/
@[simp] theorem hasNode_touch :
    (tree.touch path).HasNode other ↔ tree.HasNode other ∨ other <+: path := by
  rw [hasNode_iff, hasNode_iff, node?_touch]
  split_ifs with hbegins <;> simp [hbegins]

/-- The nodes after a path was bound. -/
@[simp] theorem hasNode_bind {a : α} :
    (tree.bind path a).HasNode other ↔ tree.HasNode other ∨ other <+: path := by
  have hnodes := node?_modifyAt (fun tree => node (some a) tree.children) (fun _ => some a)
    (fun _ => rfl) (fun _ => rfl) path other tree
  rw [hasNode_iff, hasNode_iff, bind, hnodes]
  split_ifs with heq hbegins
  · simp [heq]
  · simp [hbegins]
  · simp [hbegins]

/-! ## Ordered trees -/

/-- The children of every node are in ascending order of their segments. -/
inductive Ordered : Tree α → Prop
  /-- The children of the node are, and those of the nodes below. -/
  | node {bound : Option α} {children : List (String × Tree α)}
    (hchildren : OrderedMap.Ordered children) (hbelow : ∀ child ∈ children, Ordered child.2) :
    Ordered (.node bound children)

/-- The empty tree is ordered. -/
theorem ordered_empty : (empty : Tree α).Ordered :=
  .node List.Pairwise.nil fun _ h => absurd h List.not_mem_nil

/-- The children of an ordered tree are in order. -/
theorem Ordered.children (h : tree.Ordered) : OrderedMap.Ordered tree.children := by
  cases h with
  | node hchildren _ => exact hchildren

/-- They are ordered trees themselves. -/
theorem Ordered.of_mem (h : tree.Ordered) {child : String × Tree α} (hmem : child ∈ tree.children) :
    child.2.Ordered := by
  cases h with
  | node _ hbelow => exact hbelow child hmem

/-- So is a child that may be missing, the empty tree then. -/
theorem Ordered.getD_child? (h : tree.Ordered) (segment : String) :
    ((tree.child? segment).getD empty).Ordered := by
  rcases hchild : tree.child? segment with _ | child
  · exact ordered_empty
  · exact h.of_mem ((OrderedMap.get?_eq_some_iff h.children).1 hchild)

/-- A change of a node keeps the order if it keeps it at the node itself. -/
theorem ordered_modifyAt {f : Tree α → Tree α} (hf : ∀ tree, tree.Ordered → (f tree).Ordered)
    (path : List String) (h : tree.Ordered) : (tree.modifyAt f path).Ordered := by
  induction path generalizing tree with
  | nil => exact hf tree h
  | cons segment path ih =>
    refine .node (OrderedMap.ordered_insert _ _ h.children) fun child hchild => ?_
    rcases OrderedMap.mem_of_mem_insert hchild with rfl | hmem
    · exact ih (h.getD_child? segment)
    · exact h.of_mem hmem

/-- Touching a path keeps the order. -/
theorem Ordered.touch (h : tree.Ordered) (path : List String) : (tree.touch path).Ordered :=
  ordered_modifyAt (fun _ h => h) path h

/-- So does binding it. -/
theorem Ordered.bind (h : tree.Ordered) (path : List String) (a : α) :
    (tree.bind path a).Ordered :=
  ordered_modifyAt (fun _ h => .node h.children fun _ => h.of_mem) path h

/-- Ordered trees with the same nodes are equal. -/
theorem eq_of_node?_eq (h : tree.Ordered) (hnext : next.Ordered)
    (hnodes : ∀ path, tree.node? path = next.node? path) : tree = next := by
  induction h generalizing next with
  | @node bound children hchildren hbelow ih =>
    obtain ⟨bound', children'⟩ := next
    have hbound : bound = bound' := Option.some.inj (hnodes [])
    -- the trees below a segment have the same nodes, and so are equal
    have hget : ∀ segment,
        OrderedMap.get? segment children = OrderedMap.get? segment children' := by
      intro segment
      have hsegment : ∀ path,
          (OrderedMap.get? segment children).bind (fun child => child.node? path)
            = (OrderedMap.get? segment children').bind fun child => child.node? path := by
        intro path
        have hpath := hnodes (segment :: path)
        rwa [node?_cons, node?_cons] at hpath
      rcases hchild : OrderedMap.get? segment children with _ | child <;>
        rcases hchild' : OrderedMap.get? segment children' with _ | child' <;>
        rw [hchild, hchild'] at hsegment
      · have hnil := hsegment []
        cases hnil
      · have hnil := hsegment []
        cases hnil
      · have hmem := (OrderedMap.get?_eq_some_iff hchildren).1 hchild
        have hmem' := (OrderedMap.get?_eq_some_iff hnext.children).1 hchild'
        exact congrArg some (ih _ hmem (hnext.of_mem hmem') hsegment)
    rw [hbound, OrderedMap.eq_of_get?_eq hchildren hnext.children hget]
    rfl

/-- Touching a path that has its node changes nothing. -/
theorem touch_of_hasNode (h : tree.Ordered) (hnode : tree.HasNode path) :
    tree.touch path = tree := by
  refine eq_of_node?_eq (h.touch path) h fun other => ?_
  rw [node?_touch]
  split_ifs with hbegins
  · exact (node?_of_hasNode (hnode.ancestor hbegins)).symm
  · rfl

/-! ## The number of nodes -/

mutual

/-- The paths to the nodes below a node. -/
def paths : Tree α → List (List String)
  | node _ children => pathsOf children

/-- The paths to the nodes of trees with their segments in front. -/
def pathsOf : List (String × Tree α) → List (List String)
  | [] => []
  | (segment, tree) :: rest =>
    ([segment] :: tree.paths.map (segment :: ·)) ++ pathsOf rest

end

mutual

/-- There are as many paths as nodes. -/
theorem length_paths : (tree : Tree α) → tree.paths.length = tree.descendants
  | node _ children => by
    rw [paths, descendants]
    exact length_pathsOf children

/-- There are as many paths as nodes in trees. -/
theorem length_pathsOf :
    (children : List (String × Tree α)) → (pathsOf children).length = descendantsOf children
  | [] => rfl
  | (segment, tree) :: rest => by
    rw [pathsOf, descendantsOf, List.length_append, List.length_cons, List.length_map,
      length_paths tree, length_pathsOf rest]

end

/-- The paths of trees, tree by tree. -/
theorem pathsOf_eq_flatMap (children : List (String × Tree α)) :
    pathsOf children
      = children.flatMap fun child => [child.1] :: child.2.paths.map (child.1 :: ·) := by
  induction children with
  | nil => rfl
  | cons first rest ih => rw [pathsOf, ih, List.flatMap_cons]

/-- The paths of an ordered tree lead to its nodes, the root apart. -/
theorem mem_paths (h : tree.Ordered) : path ∈ tree.paths ↔ path ≠ [] ∧ tree.HasNode path := by
  induction h generalizing path with
  | @node bound children hchildren hbelow ih =>
    rw [paths, pathsOf_eq_flatMap, List.mem_flatMap]
    constructor
    · rintro ⟨⟨segment, child⟩, hmem, hpath⟩
      have hchild := (OrderedMap.get?_eq_some_iff hchildren).2 hmem
      rcases List.mem_cons.1 hpath with rfl | hpath
      · exact ⟨List.cons_ne_nil _ _, hasNode_cons.2 ⟨child, hchild, hasNode_nil child⟩⟩
      · obtain ⟨rest, hrest, rfl⟩ := List.mem_map.1 hpath
        exact ⟨List.cons_ne_nil _ _, hasNode_cons.2 ⟨child, hchild, ((ih _ hmem).1 hrest).2⟩⟩
    · rintro ⟨hne, hnode⟩
      obtain ⟨segment, rest, rfl⟩ := List.exists_cons_of_ne_nil hne
      obtain ⟨child, hchild, hrest⟩ := hasNode_cons.1 hnode
      have hmem := (OrderedMap.get?_eq_some_iff hchildren).1 hchild
      refine ⟨(segment, child), hmem, ?_⟩
      by_cases hnil : rest = []
      · rw [hnil]
        exact List.mem_cons_self
      · exact List.mem_cons_of_mem _ (List.mem_map_of_mem ((ih _ hmem).2 ⟨hnil, hrest⟩))

/-- No path comes twice in an ordered tree. -/
theorem nodup_paths (h : tree.Ordered) : tree.paths.Nodup := by
  induction h with
  | @node bound children hchildren hbelow ih =>
    rw [paths, pathsOf_eq_flatMap, List.nodup_flatMap]
    constructor
    · intro child hmem
      have hinner : (child.2.paths.map (child.1 :: ·)).Nodup :=
        (ih child hmem).map (List.cons_injective)
      refine List.nodup_cons.2 ⟨fun hself => ?_, hinner⟩
      obtain ⟨rest, hrest, heq⟩ := List.mem_map.1 hself
      cases heq
      exact ((mem_paths (hbelow child hmem)).1 hrest).1 rfl
    · -- the paths below different children start with different segments
      refine (List.pairwise_map.1 hchildren.nodup).imp fun {a b} hne => ?_
      intro path ha hb
      have hhead : ∀ child : String × Tree α, path ∈ [child.1] :: child.2.paths.map (child.1 :: ·) →
          path.head? = some child.1 := by
        intro child hpath
        rcases List.mem_cons.1 hpath with rfl | hpath
        · rfl
        · obtain ⟨rest, _, rfl⟩ := List.mem_map.1 hpath
          rfl
      exact hne (Option.some.inj ((hhead a ha).symm.trans (hhead b hb)))

/-- A tree that has the nodes of another one and some more has as many more descendants. -/
theorem descendants_eq_add_card (h : tree.Ordered) (hnext : next.Ordered)
    {added : Finset (List String)} (hadded : ∀ path ∈ added, ¬ tree.HasNode path)
    (hnodes : ∀ path, next.HasNode path ↔ tree.HasNode path ∨ path ∈ added) :
    next.descendants = tree.descendants + added.card := by
  have hcard : ∀ {tree : Tree α}, tree.Ordered → tree.descendants = tree.paths.toFinset.card := by
    intro tree h
    rw [List.toFinset_card_of_nodup (nodup_paths h), length_paths]
  have hdisjoint : Disjoint tree.paths.toFinset added := by
    refine Finset.disjoint_left.2 fun path hpath hmem => hadded path hmem ?_
    exact ((mem_paths h).1 (List.mem_toFinset.1 hpath)).2
  have hunion : next.paths.toFinset = tree.paths.toFinset ∪ added := by
    ext path
    rw [Finset.mem_union, List.mem_toFinset, List.mem_toFinset, mem_paths h, mem_paths hnext,
      hnodes, and_or_left]
    refine or_congr_right ⟨fun hpath => hpath.2, fun hpath => ⟨?_, hpath⟩⟩
    rintro rfl
    exact hadded [] hpath (hasNode_nil tree)
  rw [hcard h, hcard hnext, hunion, Finset.card_union_of_disjoint hdisjoint]

end DynProto.Tree
