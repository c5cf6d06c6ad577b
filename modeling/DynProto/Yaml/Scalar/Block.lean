import DynProto.Text.Decimal
import DynProto.Yaml.Scalar.Basic

/-!
# Block scalars

A scalar as a block of lines starts with a header, which may say how far the lines stand in and what
becomes of the line breaks at the end; otherwise the first lines tell the indentation. Literal
blocks keep their line breaks. In folded blocks a line break between two lines that do not start
with a blank is a space, or nothing if empty lines follow it.
-/

namespace DynProto.Yaml

/-- What becomes of the line breaks at the end of a block. -/
inductive Chomping where
  /-- None is kept. -/
  | strip
  /-- That of the last line is kept. -/
  | clip
  /-- All are kept. -/
  | keep
deriving DecidableEq, Repr

/-- What the header of a block says. -/
structure BlockHeader where
  /-- What becomes of the line breaks at the end. -/
  chomping : Chomping := .clip
  /-- How much further the lines stand in than what is around the block, if the header says so. -/
  step : Option Nat := none

/-- A digit from one to nine. -/
def stepDigit? (c : Char) : Option Nat :=
  if c.isDigit && c != '0' then some (Text.digitValue c) else none

/-- The line breaks that a sign in a header keeps. -/
def chomping? : Char → Option Chomping
  | '+' => some .keep
  | '-' => some .strip
  | _ => none

/-- The header of a block from behind its indicator, and what follows. A sign and a digit may stand
in any order; a digit that is zero is refused, because what follows a header can be no digit. -/
def blockHeader (text : List Placed) : BlockHeader × List Placed :=
  match text with
  | [] => ({}, [])
  | p :: rest =>
    match chomping? p.char, stepDigit? p.char, rest with
    | some chomping, _, q :: more =>
      match stepDigit? q.char with
      | some step => (⟨chomping, some step⟩, more)
      | none => (⟨chomping, none⟩, rest)
    | some chomping, _, [] => (⟨chomping, none⟩, [])
    | none, some step, q :: more =>
      match chomping? q.char with
      | some chomping => (⟨chomping, some step⟩, more)
      | none => (⟨.clip, some step⟩, rest)
    | none, some step, [] => (⟨.clip, some step⟩, [])
    | none, none, _ => ({}, text)

/-! ## Lines -/

/-- Empty lines in front of the next line: the deepest column they or that line reach, their line
breaks, and the text from that line's content on. Spaces count as indentation up to `indent`, or all
of them where that is not known; a tab must not stand in for one. -/
def emptyLines? (indent : Option Nat) (deepest : Nat) :
    List Placed → Option (Nat × List Char × List Placed)
  | [] => some (deepest, [], [])
  | p :: rest =>
    let inside := indent.all (p.column < ·)
    if p.char = ' ' ∧ inside then emptyLines? indent deepest rest
    else if p.char = '\t' ∧ inside then none
    else if isBreak p.char then
      (emptyLines? indent (max deepest p.column) rest).map fun (deepest, breaks, rest) =>
        (deepest, p.char :: breaks, rest)
    else some (max deepest p.column, [], p :: rest)

theorem length_of_emptyLines? {indent : Option Nat} {deepest : Nat} {text : List Placed}
    {found : Nat} {breaks : List Char} {rest : List Placed}
    (h : emptyLines? indent deepest text = some (found, breaks, rest)) :
    rest.length ≤ text.length := by
  fun_induction emptyLines? indent deepest text generalizing found breaks rest with
  | case1 => simp_all
  | case2 =>
    rename_i ih
    exact Nat.le_succ_of_le (ih h)
  | case3 => cases h
  | case4 =>
    rename_i ih
    obtain ⟨⟨_, _, _⟩, hx, hy⟩ := Option.map_eq_some_iff.1 h
    cases hy
    exact Nat.le_succ_of_le (ih hx)
  | case5 => simp_all

/-- What holds for the lines of a block. -/
structure BlockShape where
  /-- Whether line breaks are kept. -/
  literal : Bool
  /-- What becomes of those at the end. -/
  chomping : Chomping
  /-- The column at which lines start. -/
  indent : Nat

/-- What stands between two lines of a block: the line break of the first line and the breaks of the
empty lines behind it. `loose` says whether either of the two lines starts with a blank. -/
def BlockShape.between (shape : BlockShape) (loose : Bool) (first more : List Char) : List Char :=
  if !shape.literal && first == ['\n'] && !loose then
    if more.isEmpty then [' '] else more
  else first ++ more

/-- What is kept of the line breaks at the end of a block. -/
def BlockShape.tail (shape : BlockShape) (first more : List Char) : List Char :=
  match shape.chomping with
  | .strip => []
  | .clip => first
  | .keep => first ++ more

/-- The text of a block from a line on, and what follows the block. `first` and `more` are the line
breaks in front of the line, and `blank` says whether the line before starts with a blank. -/
def blockLines? (shape : BlockShape) (first more : List Char) (blank : Bool)
    (text : List Placed) : Option (List Char × List Placed) :=
  match text with
  | [] => some (shape.tail first more, [])
  | p :: rest =>
    if p.column = shape.indent then
      let line := ((p :: rest).takeWhile fun p => !isBreak p.char).map Placed.char
      let lineEnd := ((dropLine (p :: rest)).take 1).map Placed.char
      match _h : emptyLines? (some shape.indent) 0 ((dropLine (p :: rest)).drop 1) with
      | none => none
      | some (_, breaks, after) =>
        (blockLines? shape lineEnd breaks (isBlank p.char) after).map fun (found, rest) =>
          (shape.between (blank || isBlank p.char) first more ++ line ++ found, rest)
    else some (shape.tail first more, p :: rest)
termination_by text.length
decreasing_by
  have h₁ := length_of_emptyLines? _h
  have h₂ : (dropLine (p :: rest)).length ≤ (p :: rest).length :=
    (List.dropWhile_suffix _).length_le
  simp only [List.length_drop, List.length_cons] at *
  omega

/-- The text of a block from behind its indicator, and what follows the block; `around` is the
column of what is around it. -/
def block? (literal : Bool) (around : Option Nat) (text : List Placed) :
    Option (List Char × List Placed) := do
  let (header, rest) := blockHeader text
  let rest ← endLine? rest
  let known := header.step.map (around.getD 0 + ·)
  let (deepest, breaks, rest) ← emptyLines? known 0 rest
  let indent := known.getD (max deepest (max (around.elim 0 (· + 1)) 1))
  blockLines? ⟨literal, header.chomping, indent⟩ [] breaks false rest

end DynProto.Yaml
