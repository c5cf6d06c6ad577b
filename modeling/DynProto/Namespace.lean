import DynProto.Message

/-!
# Namespaces

A tree of names: every segment of a name is a node, and the node at the end of a name may be bound
to something, here to a message type. `Tree.populate` inserts names one after the other; nodes and
bindings that are there already stay. A name is inserted before what it is bound to is looked up, so
a name for which the look-up fails leaves unbound nodes behind, and ends the insertion.
-/

namespace DynProto

/-- A node of a tree of names: what it is bound to, and the nodes below it by segment. -/
inductive Tree (α : Type) where
  /-- A node with its children in the order of their segments. -/
  | node (bound : Option α) (children : List (String × Tree α))

namespace Tree

variable {α : Type}

/-- A node without children that is bound to nothing. -/
def empty : Tree α := node none []

/-- What a node is bound to. -/
def bound : Tree α → Option α
  | node bound _ => bound

/-- The nodes directly below a node. -/
def children : Tree α → OrderedMap String (Tree α)
  | node _ children => children

/-- The node directly below a node with a segment. -/
def child? (tree : Tree α) (segment : String) : Option (Tree α) :=
  OrderedMap.get? segment tree.children

/-- The node at the end of a path of segments. -/
def at? (tree : Tree α) (path : List String) : Option (Tree α) :=
  path.foldlM child? tree

/-- The node at a dotted path. One leading dot is ignored; an empty path is the node itself. -/
def resolve? (tree : Tree α) (path : String) : Option (Tree α) :=
  let path := Dotted.withoutLeadingDot path
  if path.isEmpty then some tree else tree.at? (Dotted.segments path)

/-- What the node at a dotted path is bound to. -/
def lookup? (tree : Tree α) (path : String) : Option α :=
  (tree.resolve? path).bind bound

mutual

/-- The number of nodes below a node. -/
def descendants : Tree α → Nat
  | node _ children => descendantsOf children

/-- The number of nodes in a list of trees. -/
def descendantsOf : List (String × Tree α) → Nat
  | [] => 0
  | (_, tree) :: rest => tree.descendants + 1 + descendantsOf rest

end

/-- The tree with the node at the end of a path changed; nodes that are missing are added. -/
def modifyAt (f : Tree α → Tree α) : List String → Tree α → Tree α
  | [], tree => f tree
  | segment :: path, tree =>
    let below := modifyAt f path ((tree.child? segment).getD empty)
    node tree.bound (OrderedMap.insert segment below tree.children)

/-- The tree with a node at the end of a path. -/
def touch (path : List String) (tree : Tree α) : Tree α :=
  modifyAt id path tree

/-- The tree with the node at the end of a path bound. -/
def bind (path : List String) (a : α) (tree : Tree α) : Tree α :=
  modifyAt (fun tree => node (some a) tree.children) path tree

/-- The tree with a name inserted, and the error if it could not be bound. -/
def insert {ε : Type} (lookup : String → Except ε α) (tree : Tree α) (name : QualifiedName) :
    Tree α × Except ε Unit :=
  let touched := tree.touch name.segments
  match (touched.at? name.segments).bind bound with
  | some _ => (touched, .ok ())
  | none =>
    match lookup name.fullName with
    | .ok a => (touched.bind name.segments a, .ok ())
    | .error error => (touched, .error error)

/-- The tree with names inserted, up to the first that could not be bound, and the error for it. -/
def populate {ε : Type} (lookup : String → Except ε α) :
    Tree α → List QualifiedName → Tree α × Except ε Unit
  | tree, [] => (tree, .ok ())
  | tree, name :: rest =>
    match tree.insert lookup name with
    | (tree, .ok ()) => populate lookup tree rest
    | (tree, .error error) => (tree, .error error)

end Tree

/-- A tree of names bound to message types. -/
abbrev Namespace := Tree Binding

namespace Registry

/-- The message type with a name, ready for use. -/
def binding (registry : Registry) (name : String) : Except SchemaError Binding :=
  (registry.messageType name).map fun type => ⟨registry, type⟩

/-- The namespace with the message types of the given names added. -/
def populate (registry : Registry) (tree : Namespace) (names : List QualifiedName) :
    Namespace × Except SchemaError Unit :=
  tree.populate registry.binding names

/-- The namespace of the message types with the given names. -/
def namespaceOf (registry : Registry) (names : List QualifiedName) :
    Except SchemaError Namespace :=
  let (tree, outcome) := registry.populate .empty names
  outcome.map fun _ => tree

end Registry

end DynProto
