import DynProto.Name.Dotted

/-!
# Qualified names

A `QualifiedName` is the path of a type inside packages and enclosing messages, held as the chain
from its root segment down to its symbol. Its full name is the segments joined by dots, and every
ancestor on the chain carries the corresponding shorter name, so that a namespace tree can be built
along the chain without cutting strings again.

`QualifiedName.ofDotted?` reads such a chain from a dotted text.
-/

namespace DynProto

/-- A dotted name as the chain from its root segment to its symbol. -/
inductive QualifiedName where
  /-- A name with no parent. -/
  | root (symbol : String)
  /-- A name inside a package or a message. -/
  | within (parent : QualifiedName) (symbol : String)
deriving DecidableEq, Repr

namespace QualifiedName

/-- The last segment. -/
def symbol : QualifiedName → String
  | root symbol => symbol
  | within _ symbol => symbol

/-- The enclosing package or message, if there is one. -/
def parent? : QualifiedName → Option QualifiedName
  | root _ => none
  | within parent _ => some parent

/-- The complete dotted path. -/
def fullName : QualifiedName → String
  | root symbol => symbol
  | within parent symbol => parent.fullName ++ "." ++ symbol

/-- The segments, root first. -/
def segments : QualifiedName → List String
  | root symbol => [symbol]
  | within parent symbol => parent.segments ++ [symbol]

/-- The number of segments. -/
def depth : QualifiedName → Nat
  | root _ => 1
  | within parent _ => parent.depth + 1

/-- The enclosing names, from the direct parent up to the root. -/
def ancestors : QualifiedName → List QualifiedName
  | root _ => []
  | within parent _ => parent :: parent.ancestors

/-- A symbol placed inside an optional parent. -/
def under (parent : Option QualifiedName) (symbol : String) : QualifiedName :=
  match parent with
  | none => root symbol
  | some parent => within parent symbol

/-- The chain whose segments are the given ones, if there are any. -/
def ofSegments? : List String → Option QualifiedName
  | [] => none
  | first :: rest => some (rest.foldl within (root first))

/-- The chain spelled by a dotted text. One leading dot is ignored, and a text with nothing after
it names nothing. -/
def ofDotted? (text : String) : Option QualifiedName :=
  let path := Dotted.withoutLeadingDot text
  if path.isEmpty then none else ofSegments? (Dotted.segments path)

/-! ## Views of a chain -/

@[simp] theorem segments_root (s : String) : (root s).segments = [s] := rfl

@[simp] theorem segments_within (p : QualifiedName) (s : String) :
    (within p s).segments = p.segments ++ [s] := rfl

/-- The depth counts the segments. -/
theorem length_segments (n : QualifiedName) : n.segments.length = n.depth := by
  induction n with
  | root s => rfl
  | within p s ih => simp [depth, ih]

/-- Hanging further segments below a name appends them to its path. -/
theorem segments_foldl_within (rest : List String) (n : QualifiedName) :
    (rest.foldl within n).segments = n.segments ++ rest := by
  induction rest generalizing n with
  | nil => simp
  | cons s rest ih => simp [ih]

end QualifiedName

end DynProto
