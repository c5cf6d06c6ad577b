import DynProto.Json.Parser
import DynProto.Text.Decimal
import DynProto.Yaml.Character

/-!
# Properties and directives

A node may have two properties in front, an anchor and a tag. The name of an anchor only serves
aliases, and is passed over. A tag is written in full between angle brackets, or with a handle that
stands for its first part; two handles are known from the start, and directives in front of a
document introduce others (`resolve?`).
-/

namespace DynProto.Yaml

/-! ## Tags -/

/-- A tag as it is written. -/
structure Tag where
  /-- The handle; empty for a tag that is written in full. -/
  handle : List Char
  /-- What follows the handle. -/
  suffix : Bytes
deriving DecidableEq, Repr

/-- A handle with the first part of a tag that it stands for. -/
abbrev Handles := List (List Char × Bytes)

/-- The handles that every document knows. -/
def commonHandles : Handles :=
  [(['!'], Text.utf8 "!"), (['!', '!'], Text.utf8 "tag:yaml.org,2002:")]

/-- The tag in full, if its handle is known. -/
def Tag.resolve? (handles : Handles) (tag : Tag) : Option Bytes :=
  if tag.handle.isEmpty then some tag.suffix
  else (handles.lookup tag.handle).map fun first => first ++ tag.suffix

/-- Whether a character may stand in a tag; a few more may where the tag is set apart. -/
def isTagChar (apart : Bool) (c : Char) : Bool :=
  isWordChar c || ";/?:@&=+$.!~*'()".toList.contains c || (apart && ",[]".toList.contains c)

/-- How many octets follow the first octet of a character. -/
def continuations? (octet : Nat) : Option Nat :=
  if octet < 0x80 then some 0
  else if octet < 0xC0 then none
  else if octet < 0xE0 then some 1
  else if octet < 0xF0 then some 2
  else if octet < 0xF8 then some 3
  else none

/-- The octets of a tag and the text behind it. An octet may be written as a percent sign and two
hexadecimal digits; `pending` is how many octets of a character are still to come, all written in
this way. -/
def tagOctets? (apart : Bool) (pending : Nat) : List Placed → Option (Bytes × List Placed)
  | [] => if pending = 0 then some ([], []) else none
  | p :: rest =>
    if p.char = '%' then
      match rest with
      | a :: b :: rest =>
        match Json.hexValue? a.char, Json.hexValue? b.char with
        | some a, some b =>
          let octet := 16 * a + b
          let following :=
            if pending = 0 then continuations? octet
            else if 0x80 ≤ octet ∧ octet < 0xC0 then some (pending - 1)
            else none
          match following with
          | some pending =>
            (tagOctets? apart pending rest).map fun (octets, rest) =>
              (octet.toUInt8 :: octets, rest)
          | none => none
        | _, _ => none
      | _ => none
    else if pending ≠ 0 then none
    else if isTagChar apart p.char then
      (tagOctets? apart 0 rest).map fun (octets, rest) => (p.char.toNat.toUInt8 :: octets, rest)
    else some ([], p :: rest)

/-- The octets before the first that is zero. -/
def beforeZero (octets : Bytes) : Bytes :=
  octets.takeWhile (· ≠ 0)

/-- One or more octets of a tag, up to the first that is zero, and the text behind all of them. -/
def someTagOctets? (apart : Bool) (text : List Placed) : Option (Bytes × List Placed) :=
  match tagOctets? apart 0 text with
  | some ([], _) => none
  | some (octets, rest) => some (beforeZero octets, rest)
  | none => none

/-- The characters of a word, and the text behind it. -/
def word (text : List Placed) : List Char × List Placed :=
  ((text.takeWhile fun p => isWordChar p.char).map Placed.char,
    text.dropWhile fun p => isWordChar p.char)

/-- A tag without the exclamation mark in front, and the text behind the tag. -/
def writtenTag? (text : List Placed) : Option (Tag × List Placed) :=
  if startsWithAny ['<'] text then
    match someTagOctets? true (text.drop 1) with
    | some (suffix, rest) =>
      if startsWithAny ['>'] rest then some (⟨[], suffix⟩, rest.drop 1) else none
    | none => none
  else
    let (name, rest) := word text
    if startsWithAny ['!'] rest then
      (someTagOctets? false (rest.drop 1)).map fun (suffix, rest) =>
        (⟨'!' :: name ++ ['!'], suffix⟩, rest)
    else
      (tagOctets? false 0 rest).map fun (octets, rest) =>
        let suffix := beforeZero (name.map (·.toNat.toUInt8) ++ octets)
        (if suffix.isEmpty then ⟨[], Text.utf8 "!"⟩ else ⟨['!'], suffix⟩, rest)

/-- A tag without the exclamation mark in front, and the text behind the tag. A blank or the end of
the line must follow or, between braces, a comma. -/
def tag? (inBraces : Bool) (text : List Placed) : Option (Tag × List Placed) :=
  match writtenTag? text with
  | some (tag, rest) =>
    if atWordEnd rest || (inBraces && startsWithAny [','] rest) then some (tag, rest) else none
  | none => none

/-! ## Anchors -/

/-- The text behind an anchor, given the text behind its ampersand. -/
def anchor? (text : List Placed) : Option (List Placed) :=
  let (name, rest) := word text
  if !name.isEmpty && (atWordEnd rest || startsWithAny "?:,]\x7d%@\x60".toList rest) then some rest
  else none

/-! ## Directives -/

/-- A directive in front of a document. -/
inductive Directive where
  /-- The version of YAML. -/
  | version (major minor : Nat)
  /-- A handle and what it stands for. -/
  | handle (name : List Char) (first : Bytes)
deriving DecidableEq, Repr

/-- A part of a version: up to nine digits. -/
def versionPart? (text : List Placed) : Option (Nat × List Placed) :=
  let digits := (text.takeWhile fun p => p.char.isDigit).map Placed.char
  if digits.isEmpty || 9 < digits.length then none
  else some (Text.digitsValue digits, text.drop digits.length)

/-- A version: two numbers with a point between. -/
def version? (text : List Placed) : Option (Directive × List Placed) := do
  let (major, rest) ← versionPart? text
  if startsWithAny ['.'] rest then
    let (minor, rest) ← versionPart? (rest.drop 1)
    some (.version major minor, rest)
  else none

/-- A handle without the exclamation mark in front: a name and an exclamation mark, or nothing. -/
def handle? (text : List Placed) : Option (List Char × List Placed) :=
  let (name, rest) := word text
  if startsWithAny ['!'] rest then some ('!' :: name ++ ['!'], rest.drop 1)
  else if name.isEmpty then some (['!'], rest)
  else none

/-- A handle and what it stands for, set apart by blanks. -/
def handleMeaning? (text : List Placed) : Option (Directive × List Placed) :=
  if startsWithAny ['!'] text then do
    let (name, rest) ← handle? (text.drop 1)
    if startsWithAny [' ', '\t'] rest then
      let (first, rest) ← someTagOctets? true (dropBlanks rest)
      if atWordEnd rest then some (.handle name first, rest) else none
    else none
  else none

/-- A directive, given the text behind its percent sign, and the text from the next line on. -/
def directive? (text : List Placed) : Option (Directive × List Placed) :=
  let (name, rest) := word text
  if atWordEnd rest then do
    let (directive, rest) ←
      if name = "YAML".toList then version? (dropBlanks rest)
      else if name = "TAG".toList then handleMeaning? (dropBlanks rest)
      else none
    let rest ← endLine? rest
    some (directive, rest)
  else none

end DynProto.Yaml
