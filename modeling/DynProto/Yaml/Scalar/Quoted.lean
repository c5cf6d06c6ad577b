import DynProto.Json.Parser
import DynProto.Yaml.Scalar.Basic

/-!
# Quoted scalars

In single quotes, a quote is written twice and all else stands for itself. In double quotes a
backslash starts an escape: a letter, the hexadecimal code of a character, or the end of a line that
does not count. Both may go on over several lines, and a mark between documents must not stand
inside.
-/

namespace DynProto.Yaml

/-- The text of a scalar in single quotes from behind a gap on, up to the closing quote, and what
follows the quote. -/
def singleQuoted? (gap : Gap) : List Placed → Option (List Char × List Placed)
  | [] => none
  | p :: rest =>
    if isBlank p.char || isBreak p.char then singleQuoted? (gap.push p.char) rest
    else if atDocumentMark (p :: rest) then none
    else if p.char = '\'' then
      match rest with
      | [] => some (gap.text, [])
      | q :: more =>
        if q.char = '\'' then
          (singleQuoted? .empty more).map fun (text, rest) => (gap.text ++ '\'' :: text, rest)
        else some (gap.text, rest)
    else (singleQuoted? .empty rest).map fun (text, rest) => (gap.text ++ p.char :: text, rest)

/-! ## Double quotes -/

/-- How far an escape has been read. -/
inductive Escape where
  /-- There is none. -/
  | none
  /-- Up to the backslash. -/
  | backslash
  /-- A code of which some hexadecimal digits are missing still. -/
  | code (missing : Nat) (value : Nat)
deriving DecidableEq, Repr

/-- The character that a backslash and a character stand for. -/
def escaped? : Char → Option Char
  | '0' => some '\x00'
  | 'a' => some '\x07'
  | 'b' => some '\x08'
  | 't' => some '\t'
  | '\t' => some '\t'
  | 'n' => some '\n'
  | 'v' => some '\x0b'
  | 'f' => some '\x0c'
  | 'r' => some '\r'
  | 'e' => some '\x1b'
  | ' ' => some ' '
  | '"' => some '"'
  | '/' => some '/'
  | '\\' => some '\\'
  | 'N' => some '\u0085'
  | '_' => some '\u00a0'
  | 'L' => some '\u2028'
  | 'P' => some '\u2029'
  | _ => none

/-- The number of digits in a code that a backslash and a character announce. -/
def codeLength? : Char → Option Nat
  | 'x' => some 2
  | 'u' => some 4
  | 'U' => some 8
  | _ => none

/-- The character with a code. -/
def ofCode? (code : Nat) : Option Char :=
  if h : code.isValidChar then some (Char.ofNatAux code h) else none

/-- The text of a scalar in double quotes from behind a gap or inside an escape on, up to the
closing quote, and what follows the quote. -/
def doubleQuoted? (gap : Gap) (escape : Escape) : List Placed → Option (List Char × List Placed)
  | [] => none
  | p :: rest =>
    match escape with
    | .none =>
      if isBlank p.char || isBreak p.char then doubleQuoted? (gap.push p.char) .none rest
      else if atDocumentMark (p :: rest) then none
      else if p.char = '"' then some (gap.text, rest)
      else if p.char = '\\' then
        (doubleQuoted? .empty .backslash rest).map fun (text, rest) => (gap.text ++ text, rest)
      else
        (doubleQuoted? .empty .none rest).map fun (text, rest) =>
          (gap.text ++ p.char :: text, rest)
    | .backslash =>
      if isBreak p.char then doubleQuoted? (.breaks Option.none []) .none rest
      else
        match escaped? p.char, codeLength? p.char with
        | some c, _ =>
          (doubleQuoted? .empty .none rest).map fun (text, rest) => (c :: text, rest)
        | Option.none, some missing => doubleQuoted? .empty (.code missing 0) rest
        | Option.none, Option.none => none
    | .code missing value =>
      match Json.hexValue? p.char with
      | Option.none => none
      | some digit =>
        let value := 16 * value + digit
        if 1 < missing then doubleQuoted? .empty (.code (missing - 1) value) rest
        else
          match ofCode? value with
          | some c => (doubleQuoted? .empty .none rest).map fun (text, rest) => (c :: text, rest)
          | Option.none => none

end DynProto.Yaml
