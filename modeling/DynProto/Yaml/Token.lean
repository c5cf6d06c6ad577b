import DynProto.Yaml.Property
import DynProto.Yaml.Scalar.Block
import DynProto.Yaml.Scalar.Plain
import DynProto.Yaml.Scalar.Quoted

/-!
# Tokens of a YAML text

A text becomes a list of tokens. Where a mapping in block form starts and ends is told by columns
alone, and a key on one line is known as one only by the colon behind it; until then it is a
`Candidate`, which holds back its tokens, so that the tokens for the mapping and the key can still
be put in front of them. A candidate is given up when its line ends or after 1024 characters.

Only what the mapping of a document can consist of is taken: sequences, aliases and braces inside
braces are refused where they start.
-/

namespace DynProto.Yaml

/-- A token. -/
inductive Token where
  /-- A directive in front of a document. -/
  | directive (directive : Directive)
  /-- The mark that opens a document. -/
  | documentStart
  /-- The mark that ends a document. -/
  | documentEnd
  /-- The start of a mapping in block form. -/
  | blockStart
  /-- The end of a mapping in block form. -/
  | blockEnd
  /-- An opening brace. -/
  | braceOpen
  /-- A closing brace. -/
  | braceClose
  /-- A comma. -/
  | comma
  /-- The start of a key. -/
  | key
  /-- The start of a value. -/
  | value
  /-- An anchor. -/
  | anchor
  /-- A tag. -/
  | tag (tag : Tag)
  /-- A scalar. -/
  | scalar (style : Style) (text : List Char)
deriving DecidableEq, Repr

/-- What may turn out to be a key. -/
structure Candidate where
  /-- Its first character. -/
  first : Placed
  /-- Whether it can be nothing else, because a mapping stands at its column. -/
  required : Bool
  /-- The tokens since then, last first. -/
  tokens : List Token

/-- Whether a candidate is too far back to be a key whose colon is at a place. -/
def Candidate.isStale (candidate : Candidate) (p : Placed) : Bool :=
  candidate.first.line < p.line || candidate.first.index + 1024 < p.index

/-- How far a text has been read. -/
structure TokenState where
  /-- The text that is left. -/
  text : List Placed
  /-- The columns of the mappings in block form around it, innermost first. -/
  columns : List Nat := []
  /-- Whether it stands between braces. -/
  inBraces : Bool := false
  /-- Whether a key can start here. -/
  keyAllowed : Bool := true
  /-- What may turn out to be a key. -/
  candidate : Option Candidate := none
  /-- The tokens before the candidate, last first. -/
  tokens : List Token := []

namespace TokenState

/-! ## Tokens and candidates -/

/-- One more token. -/
def emit (token : Token) (state : TokenState) : TokenState :=
  match state.candidate with
  | some candidate =>
    { state with candidate := some { candidate with tokens := token :: candidate.tokens } }
  | none => { state with tokens := token :: state.tokens }

/-- Gives the candidate up, unless it must be a key. -/
def giveUp? (state : TokenState) : Option TokenState :=
  match state.candidate with
  | none => some state
  | some candidate =>
    if candidate.required then none
    else some { state with candidate := none, tokens := candidate.tokens ++ state.tokens }

/-- Gives the candidate up if it is too far back. -/
def expire? (state : TokenState) : Option TokenState :=
  match state.candidate, state.text with
  | some candidate, p :: _ => if candidate.isStale p then state.giveUp? else some state
  | some _, [] => state.giveUp?
  | none, _ => some state

/-- Takes note that a key may start at a place; what comes next cannot start one. -/
def startKey? (p : Placed) (state : TokenState) : Option TokenState :=
  if state.keyAllowed then do
    let required := !state.inBraces && state.columns.head? == some p.column
    let state ← state.giveUp?
    some { state with keyAllowed := false, candidate := some ⟨p, required, []⟩ }
  else some state

/-! ## Mappings in block form -/

/-- Opens a mapping at a column that is further in than those around. -/
def openBlock (column : Nat) (state : TokenState) : TokenState :=
  if state.columns.head?.all (· < column) then
    { state.emit .blockStart with columns := column :: state.columns }
  else state

/-- Closes the mappings whose columns a test picks, innermost first. -/
def closeBlocks (test : Nat → Bool) (state : TokenState) : TokenState :=
  if state.inBraces then state
  else
    let closed := (state.columns.takeWhile test).foldl (fun state _ => state.emit .blockEnd) state
    { closed with columns := state.columns.dropWhile test }

/-- Closes all mappings, before the end of a document. -/
def endContent? (state : TokenState) : Option TokenState := do
  let state ← (state.closeBlocks fun _ => true).giveUp?
  some { state with keyAllowed := false }

/-! ## Blanks and comments -/

/-- The text behind blanks, line breaks and comments, and whether a key can start there. A tab is
no blank where it could stand in for indentation; a byte order mark at the start of a line counts as
one. -/
def dropSpace (inBraces comment keyAllowed : Bool) : List Placed → List Placed × Bool
  | [] => ([], keyAllowed)
  | p :: rest =>
    if isBreak p.char then dropSpace inBraces false (keyAllowed || !inBraces) rest
    else if comment || p.char == '#' then dropSpace inBraces true keyAllowed rest
    else if p.char == ' ' || (p.char == '\t' && (inBraces || !keyAllowed)) ||
        (p.char == '\ufeff' && p.column == 0) then
      dropSpace inBraces false keyAllowed rest
    else (p :: rest, keyAllowed)

/-- The state at the next token. -/
def skip (state : TokenState) : TokenState :=
  let (text, keyAllowed) := dropSpace state.inBraces false state.keyAllowed state.text
  { state with text, keyAllowed }

/-! ## Single tokens -/

/-- Reads the indicator of a key. -/
def readKey? (p : Placed) (rest : List Placed) (state : TokenState) : Option TokenState :=
  if state.inBraces || state.keyAllowed then do
    let state := if state.inBraces then state else state.openBlock p.column
    let state ← state.giveUp?
    some ({ state with text := rest, keyAllowed := !state.inBraces }.emit .key)
  else none

/-- Reads the indicator of a value; if there is a candidate, it is the key. -/
def readValue? (p : Placed) (rest : List Placed) (state : TokenState) : Option TokenState :=
  match state.candidate with
  | some candidate =>
    let before := { state with candidate := none }
    let opened := if state.inBraces then before else before.openBlock candidate.first.column
    some {
      opened with
      text := rest
      keyAllowed := false
      tokens := .value :: (candidate.tokens ++ .key :: opened.tokens) }
  | none =>
    if state.inBraces then some ({ state with text := rest, keyAllowed := false }.emit .value)
    else if state.keyAllowed then
      some ({ state.openBlock p.column with text := rest, keyAllowed := true }.emit .value)
    else none

/-- Reads a scalar in one of the styles that can make a key; `broken` says whether it ends in a line
break. -/
def readScalar? (p : Placed) (style : Style) (text : List Char) (broken : Bool)
    (rest : List Placed) (state : TokenState) : Option TokenState := do
  let state ← state.startKey? p
  some ({ state with text := rest, keyAllowed := broken }.emit (.scalar style text))

/-- Reads a property. -/
def readProperty? (p : Placed) (token : Token) (rest : List Placed) (state : TokenState) :
    Option TokenState := do
  let state ← state.startKey? p
  some ({ state with text := rest, keyAllowed := false }.emit token)

/-- Reads a block scalar. -/
def readBlock? (literal : Bool) (rest : List Placed) (state : TokenState) : Option TokenState := do
  let state ← state.giveUp?
  let (text, rest) ← block? literal state.columns.head? rest
  let style := if literal then Style.literal else Style.folded
  some ({ state with text := rest, keyAllowed := true }.emit (.scalar style text))

/-- Reads an opening brace. -/
def openBrace? (rest : List Placed) (state : TokenState) : Option TokenState :=
  if state.inBraces then none
  else do
    let state ← state.giveUp?
    some ({ state with text := rest, inBraces := true, keyAllowed := true }.emit .braceOpen)

/-- Reads a closing brace. -/
def closeBrace? (rest : List Placed) (state : TokenState) : Option TokenState := do
  let state ← state.giveUp?
  some ({ state with text := rest, inBraces := false, keyAllowed := false }.emit .braceClose)

/-- Reads a comma. -/
def readComma? (rest : List Placed) (state : TokenState) : Option TokenState := do
  let state ← state.giveUp?
  some ({ state with text := rest, keyAllowed := true }.emit .comma)

/-- Reads a plain scalar, if one can start here. -/
def readPlain? (p : Placed) (rest : List Placed) (state : TokenState) : Option TokenState :=
  if startsPlain state.inBraces (p :: rest) then do
    let indent := state.columns.head?.elim 0 (· + 1)
    let (text, broken, rest) ← plain? ⟨state.inBraces, indent⟩ .empty (p :: rest)
    state.readScalar? p .plain text broken rest
  else none

/-- Reads the token that starts with a character. -/
def readToken? (p : Placed) (rest : List Placed) (state : TokenState) : Option TokenState :=
  if p.char = '%' ∧ p.column = 0 then do
    let state ← state.endContent?
    let (directive, rest) ← directive? rest
    some ({ state with text := rest }.emit (.directive directive))
  else if atDocumentMark (p :: rest) then do
    let state ← state.endContent?
    let mark := if p.char = '-' then Token.documentStart else Token.documentEnd
    some ({ state with text := rest.drop 2 }.emit mark)
  else
    match p.char with
    | '\x7b' => state.openBrace? rest
    | '\x7d' => state.closeBrace? rest
    | ',' => state.readComma? rest
    | '&' => do
      let rest ← anchor? rest
      state.readProperty? p .anchor rest
    | '!' => do
      let (tag, rest) ← tag? state.inBraces rest
      state.readProperty? p (.tag tag) rest
    | '\'' => do
      let (text, rest) ← singleQuoted? .empty rest
      state.readScalar? p .singleQuoted text false rest
    | '"' => do
      let (text, rest) ← doubleQuoted? .empty .none rest
      state.readScalar? p .doubleQuoted text false rest
    | '?' =>
      if state.inBraces || atWordEnd rest then state.readKey? p rest else state.readPlain? p rest
    | ':' =>
      if state.inBraces || atWordEnd rest then state.readValue? p rest else state.readPlain? p rest
    | '|' => if state.inBraces then none else state.readBlock? true rest
    | '>' => if state.inBraces then none else state.readBlock? false rest
    | _ => state.readPlain? p rest

/-! ## Whole texts -/

/-- The tokens of the text that is left behind those read. Every token takes some of the text; one
that did not would be refused. -/
def finish? (state : TokenState) : Option (List Token) :=
  match state.skip.expire? with
  | none => none
  | some current =>
    match current.text with
    | [] => current.endContent?.map fun last => last.tokens.reverse
    | p :: rest =>
      match (current.closeBlocks (p.column < ·)).readToken? p rest with
      | none => none
      | some next => if next.text.length < state.text.length then next.finish? else none
termination_by state.text.length

end TokenState

/-- The tokens of a text. -/
def tokens? (text : String) : Option (List Token) :=
  (characters? text).bind fun characters => ({ text := characters } : TokenState).finish?

end DynProto.Yaml
