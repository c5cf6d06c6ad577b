import DynProto.Yaml.Scalar.Basic

/-!
# Plain scalars

A scalar without quotes goes on over blanks and lines until a colon that ends a key, a comment, a
mark between documents or a line that does not stand far enough in. Between braces, indentation does
not count, and commas, brackets and braces end the scalar too.
-/

namespace DynProto.Yaml

/-- Where a plain scalar can go on. -/
structure PlainContext where
  /-- Whether the scalar stands between braces. -/
  inBraces : Bool
  /-- The least column for the lines of a scalar that does not. -/
  indent : Nat

/-- Whether a plain scalar ends in front of a character. -/
def PlainContext.endsBefore (context : PlainContext) (gap : Gap) (p : Placed)
    (rest : List Placed) : Bool :=
  (!gap.isEmpty && ((!context.inBraces && p.column < context.indent) || p.char == '#' ||
      atDocumentMark (p :: rest))) ||
    (p.char == ':' && atWordEnd rest) ||
    (context.inBraces && ",[]\x7b\x7d".toList.contains p.char)

/-- The text of a plain scalar from behind a gap on, whether the scalar ends in a line break, and
what follows. A tab must not stand in for indentation, nor between braces a colon right in front of
an indicator. -/
def plain? (context : PlainContext) (gap : Gap) :
    List Placed → Option (List Char × Bool × List Placed)
  | [] => some ([], gap.isBroken, [])
  | p :: rest =>
    if isBlank p.char || isBreak p.char then
      if p.char = '\t' ∧ gap.isBroken ∧ p.column < context.indent then none
      else plain? context (gap.push p.char) rest
    else if context.endsBefore gap p rest then some ([], gap.isBroken, p :: rest)
    else if context.inBraces && p.char == ':' && startsWithAny ",?[]\x7b\x7d".toList rest then none
    else
      (plain? context .empty rest).map fun (text, broken, rest) =>
        (gap.text ++ p.char :: text, broken, rest)

/-- Whether a plain scalar can start in front of a text. An indicator can start one only with more
of a word right behind it. -/
def startsPlain (inBraces : Bool) : List Placed → Bool
  | [] => false
  | p :: rest =>
    if isBlank p.char || isBreak p.char then false
    else if p.char == '-' then !atWordEnd rest
    else if p.char == '?' || p.char == ':' then !inBraces && !atWordEnd rest
    else !",[]\x7b\x7d#&*!|>'\"%@\x60".toList.contains p.char

end DynProto.Yaml
