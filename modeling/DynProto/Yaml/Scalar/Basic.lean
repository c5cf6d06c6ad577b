import DynProto.Yaml.Character

/-!
# Scalars

A scalar is a text in one of five styles. In a plain or a quoted scalar blanks and line breaks
between two words are a `Gap`. Blanks on one line count as they are. Over several lines they are
folded: blanks around line breaks do not count, a single line break is a space, and of several the
first does not count.
-/

namespace DynProto.Yaml

/-- How a scalar is written. -/
inductive Style where
  /-- Without quotes. -/
  | plain
  /-- In single quotes. -/
  | singleQuoted
  /-- In double quotes. -/
  | doubleQuoted
  /-- As a block of lines that are kept. -/
  | literal
  /-- As a block of lines that are joined. -/
  | folded
deriving DecidableEq, Repr

/-- A scalar in a document. -/
structure ScalarNode where
  /-- How it is written. -/
  style : Style
  /-- Its tag in full, if it has one. -/
  tag : Option Bytes
  /-- Its text. -/
  text : List Char
deriving DecidableEq, Repr

/-- What stands between two words; both lists have the last character first. -/
inductive Gap where
  /-- Blanks on one line. -/
  | blanks (cs : List Char)
  /-- Line breaks, apart from the blanks around them; the first of them may be suppressed. -/
  | breaks (first : Option Char) (more : List Char)
deriving DecidableEq, Repr

namespace Gap

/-- Nothing between two characters of one word. -/
def empty : Gap := blanks []

/-- Whether nothing is there. -/
def isEmpty : Gap → Bool
  | blanks cs => cs.isEmpty
  | breaks _ _ => false

/-- Whether the line ends in the gap. -/
def isBroken : Gap → Bool
  | blanks _ => false
  | breaks _ _ => true

/-- The gap with one more blank or line break. -/
def push (c : Char) : Gap → Gap
  | blanks cs => if isBreak c then breaks (some c) [] else blanks (c :: cs)
  | breaks first more => if isBreak c then breaks first (c :: more) else breaks first more

/-- What a gap counts for. -/
def text : Gap → List Char
  | blanks cs => cs.reverse
  | breaks (some '\n') [] => [' ']
  | breaks (some '\n') more => more.reverse
  | breaks first more => first.toList ++ more.reverse

end Gap

end DynProto.Yaml
