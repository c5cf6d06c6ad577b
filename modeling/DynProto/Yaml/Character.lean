import DynProto.Text.Utf8

/-!
# Characters of a YAML text

The text of a document is taken as a list of characters, each with the place where it stands,
because indentation, the marks between documents and the length of a key depend on places. Line
breaks come in several spellings; all but the separators of lines and of paragraphs are taken as a
line feed.
-/

namespace DynProto.Yaml

/-- A character with the place where it stands. -/
structure Placed where
  /-- The character. -/
  char : Char
  /-- The number of characters before it. -/
  index : Nat
  /-- The number of line breaks before it. -/
  line : Nat
  /-- The number of characters before it on its line. -/
  column : Nat
deriving DecidableEq, Repr

/-- Whether a character is a line break: a line feed, or a separator of lines or of paragraphs. -/
def isBreak (c : Char) : Bool :=
  c == '\n' || c == '\u2028' || c == '\u2029'

/-- Whether a character is a blank inside a line. -/
def isBlank (c : Char) : Bool :=
  c == ' ' || c == '\t'

/-- Whether a character may stand in the name of an anchor, a directive or a tag's handle. -/
def isWordChar (c : Char) : Bool :=
  c.isAlphanum || c == '_' || c == '-'

/-- Whether a character may stand in a document at all: no control character other than a tab or a
line break does, and neither do the two code points that end the first plane. -/
def isAllowed (c : Char) : Bool :=
  c == '\t' || c == '\n' || c == '\r' || ('\x20' ≤ c && c ≤ '\x7e') || c == '\u0085' ||
    ('\u00a0' ≤ c && c ≤ '\ufffd') || 0x10000 ≤ c.toNat

/-- The characters of a text with their places, counted on from the given ones. -/
def place (index line column : Nat) : List Char → List Placed
  | [] => []
  | '\r' :: '\n' :: rest => ⟨'\n', index, line, column⟩ :: place (index + 2) (line + 1) 0 rest
  | c :: rest =>
    let c := if c = '\r' ∨ c = '\u0085' then '\n' else c
    if isBreak c then ⟨c, index, line, column⟩ :: place (index + 1) (line + 1) 0 rest
    else ⟨c, index, line, column⟩ :: place (index + 1) line (column + 1) rest

/-- The characters of a text with their places, if all of them are allowed. -/
def characters? (text : String) : Option (List Placed) :=
  if text.toList.all isAllowed then some (place 0 0 0 text.toList) else none

/-! ## What stands in front -/

/-- Whether no word goes on here: the text is at an end, or at a blank or a line break. -/
def atWordEnd : List Placed → Bool
  | [] => true
  | p :: _ => isBlank p.char || isBreak p.char

/-- Whether the text starts with one of some characters. -/
def startsWithAny (cs : List Char) : List Placed → Bool
  | [] => false
  | p :: _ => cs.contains p.char

/-- Whether a line starts here with three times the same character and nothing right behind. -/
def atMark (c : Char) : List Placed → Bool
  | p :: q :: r :: rest =>
    p.column == 0 && p.char == c && q.char == c && r.char == c && atWordEnd rest
  | _ => false

/-- Whether a line starts here with the mark that opens a document or the one that ends it. -/
def atDocumentMark (text : List Placed) : Bool :=
  atMark '-' text || atMark '.' text

/-- The text without the blanks in front. -/
def dropBlanks (text : List Placed) : List Placed :=
  text.dropWhile fun p => isBlank p.char

/-- The text from the next line break on. -/
def dropLine (text : List Placed) : List Placed :=
  text.dropWhile fun p => !isBreak p.char

/-- The text behind the end of the line, where only blanks and a comment are left on the line. -/
def endLine? (text : List Placed) : Option (List Placed) :=
  let text := dropBlanks text
  let text := if startsWithAny ['#'] text then dropLine text else text
  match text with
  | [] => some []
  | p :: rest => if isBreak p.char then some rest else none

end DynProto.Yaml
