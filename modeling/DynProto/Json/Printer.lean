import DynProto.Json.Basic
import DynProto.Number.Shortest

/-!
# Writing JSON text

Two layouts of a value: `compact` has no blanks, `pretty` puts every item and member on a line of
its own, two spaces further in for each level. In strings only the quote, the backslash and the
control characters are escaped.
-/

namespace DynProto.Json

/-- The hexadecimal digit for a number below sixteen. -/
def hexDigit (n : Nat) : Char :=
  Char.ofNat (if n < 10 then 48 + n else 87 + n)

/-- The characters that write one character of a string. -/
def escape (c : Char) : List Char :=
  if c = '"' then ['\\', '"']
  else if c = '\\' then ['\\', '\\']
  else if c = '\x08' then ['\\', 'b']
  else if c = '\x0c' then ['\\', 'f']
  else if c = '\n' then ['\\', 'n']
  else if c = '\r' then ['\\', 'r']
  else if c = '\t' then ['\\', 't']
  else if c.toNat < 0x20 then
    ['\\', 'u', '0', '0', hexDigit (c.toNat / 16), hexDigit (c.toNat % 16)]
  else [c]

/-- A string with its quotes. -/
def quoted (text : String) : List Char :=
  '"' :: (text.toList.flatMap escape ++ ['"'])

/-- The characters of a number. -/
def Number.chars : Number → List Char
  | natural n => Text.digits n.toNat
  | negative n => Text.integerChars n.toInt
  | double word => Number.scientific.render word

/-- The text of a number. -/
def Number.text (n : Number) : String :=
  String.ofList n.chars

mutual

/-- The characters of a value without blanks. -/
def compactChars : Json → List Char
  | null => ['n', 'u', 'l', 'l']
  | bool true => ['t', 'r', 'u', 'e']
  | bool false => ['f', 'a', 'l', 's', 'e']
  | number n => n.chars
  | string s => quoted s
  | array [] => ['[', ']']
  | array (item :: rest) => '[' :: (item.compactChars ++ compactItems rest)
  | object [] => ['\x7b', '\x7d']
  | object ((key, value) :: rest) =>
    '\x7b' :: (quoted key ++ ':' :: (value.compactChars ++ compactMembers rest))

/-- The further items of an array and its end. -/
def compactItems : List Json → List Char
  | [] => [']']
  | item :: rest => ',' :: (item.compactChars ++ compactItems rest)

/-- The further members of an object and its end. -/
def compactMembers : List (String × Json) → List Char
  | [] => ['\x7d']
  | (key, value) :: rest =>
    ',' :: (quoted key ++ ':' :: (value.compactChars ++ compactMembers rest))

end

/-- The start of a line at a level of nesting. -/
def lineStart (level : Nat) : List Char :=
  '\n' :: List.replicate (2 * level) ' '

mutual

/-- The characters of a value that stands at a level of nesting, on several lines. -/
def prettyChars (level : Nat) : Json → List Char
  | null => ['n', 'u', 'l', 'l']
  | bool true => ['t', 'r', 'u', 'e']
  | bool false => ['f', 'a', 'l', 's', 'e']
  | number n => n.chars
  | string s => quoted s
  | array [] => ['[', ']']
  | array (item :: rest) =>
    '[' :: (lineStart (level + 1) ++ (item.prettyChars (level + 1) ++ prettyItems level rest))
  | object [] => ['\x7b', '\x7d']
  | object ((key, value) :: rest) =>
    '\x7b' :: (lineStart (level + 1) ++ (quoted key ++
      ':' :: ' ' :: (value.prettyChars (level + 1) ++ prettyMembers level rest)))

/-- The further items of an array at a level of nesting, and its end. -/
def prettyItems (level : Nat) : List Json → List Char
  | [] => lineStart level ++ [']']
  | item :: rest =>
    ',' :: (lineStart (level + 1) ++ (item.prettyChars (level + 1) ++ prettyItems level rest))

/-- The further members of an object at a level of nesting, and its end. -/
def prettyMembers (level : Nat) : List (String × Json) → List Char
  | [] => lineStart level ++ ['\x7d']
  | (key, value) :: rest =>
    ',' :: (lineStart (level + 1) ++ (quoted key ++
      ':' :: ' ' :: (value.prettyChars (level + 1) ++ prettyMembers level rest)))

end

/-- The text of a value without blanks. -/
def compact (json : Json) : String :=
  String.ofList json.compactChars

/-- The text of a value on several lines. -/
def pretty (json : Json) : String :=
  String.ofList (json.prettyChars 0)

end DynProto.Json
