import DynProto.Json.Basic
import DynProto.Number.Scaling

/-!
# Reading JSON text

A strict reader: blanks are the space, the tab and the two line ends; numbers have no leading zero
and must not be infinite as floating-point numbers; strings hold no control character and no half
of a surrogate pair; nothing but blanks follows the value. At most `maxDepth` arrays and objects
may be nested.

Every reader takes the characters that are left and gives what it read and what is left then.
`value` descends on the number of nestings still allowed, the loops on a bound for the number of
items, for which the number of characters serves.
-/

namespace DynProto.Json

open DynProto.Number (Format)

/-- How deeply arrays and objects may be nested. -/
def maxDepth : Nat := 127

/-- A character that may stand between tokens. -/
def isBlank (c : Char) : Bool :=
  c == ' ' || c == '\t' || c == '\n' || c == '\r'

/-- The characters after leading blanks. -/
def skipBlanks (cs : List Char) : List Char :=
  cs.dropWhile isBlank

/-! ## Strings -/

/-- The value of a hexadecimal digit. -/
def hexValue? (c : Char) : Option Nat :=
  if c.isDigit then some (c.toNat - 48)
  else if 'a' ≤ c ∧ c ≤ 'f' then some (c.toNat - 87)
  else if 'A' ≤ c ∧ c ≤ 'F' then some (c.toNat - 55)
  else none

/-- The number spelled by four hexadecimal digits. -/
def hex4? (a b c d : Char) : Option Nat := do
  let a ← hexValue? a
  let b ← hexValue? b
  let c ← hexValue? c
  let d ← hexValue? d
  some (((a * 16 + b) * 16 + c) * 16 + d)

/-- The character that a backslash and a letter stand for. -/
def escaped? : Char → Option Char
  | '"' => some '"'
  | '\\' => some '\\'
  | '/' => some '/'
  | 'b' => some '\x08'
  | 'f' => some '\x0c'
  | 'n' => some '\n'
  | 'r' => some '\r'
  | 't' => some '\t'
  | _ => none

/-- The first half of a surrogate pair. -/
def isHighSurrogate (code : Nat) : Bool :=
  0xD800 ≤ code && code < 0xDC00

/-- The second half of a surrogate pair. -/
def isLowSurrogate (code : Nat) : Bool :=
  0xDC00 ≤ code && code < 0xE000

/-- The characters of a string after its opening quote, up to its closing quote. -/
def stringBody : List Char → Option (List Char × List Char)
  | [] => none
  | '"' :: rest => some ([], rest)
  | '\\' :: 'u' :: a :: b :: c :: d :: rest =>
    match hex4? a b c d with
    | none => none
    | some code =>
      if isHighSurrogate code then
        match rest with
        | '\\' :: 'u' :: e :: f :: g :: h :: rest =>
          match hex4? e f g h with
          | none => none
          | some low =>
            if isLowSurrogate low then
              let pair := Char.ofNat (0x10000 + (code - 0xD800) * 0x400 + (low - 0xDC00))
              (stringBody rest).map fun (cs, rest) => (pair :: cs, rest)
            else none
        | _ => none
      else if isLowSurrogate code then none
      else (stringBody rest).map fun (cs, rest) => (Char.ofNat code :: cs, rest)
  | '\\' :: letter :: rest =>
    match escaped? letter with
    | none => none
    | some c => (stringBody rest).map fun (cs, rest) => (c :: cs, rest)
  | c :: rest =>
    if c.toNat < 0x20 then none else (stringBody rest).map fun (cs, rest) => (c :: cs, rest)

/-! ## Numbers -/

/-- The leading digits and what follows them. -/
def digitSpan (cs : List Char) : List Char × List Char :=
  (cs.takeWhile Char.isDigit, cs.dropWhile Char.isDigit)

/-- Digits after a point, if there is a point; then there must be one. -/
def fractionPart : List Char → Option (Option (List Char) × List Char)
  | '.' :: rest =>
    let (digits, rest) := digitSpan rest
    if digits.isEmpty then none else some (some digits, rest)
  | cs => some (none, cs)

/-- The exponent of a number, if there is one; then it must have a digit. -/
def exponentPart (cs : List Char) : Option (Option Int × List Char) :=
  let unsigned (negative : Bool) (cs : List Char) : Option (Option Int × List Char) :=
    let (digits, rest) := digitSpan cs
    if digits.isEmpty then none
    else
      let n : Int := Text.digitsValue digits
      some (some (if negative then -n else n), rest)
  match cs with
  | c :: rest =>
    if c = 'e' ∨ c = 'E' then
      match rest with
      | '-' :: rest => unsigned true rest
      | '+' :: rest => unsigned false rest
      | rest => unsigned false rest
    else some (none, cs)
  | [] => some (none, cs)

/-- A floating-point number, unless it is infinite. -/
def finite? (negative : Bool) (magnitude : Nat) : Option Number :=
  if magnitude < Format.double.infinity then
    some (.double (Format.double.signed negative magnitude).toUInt64)
  else none

/-- The number of an integer literal: held exactly if it fits 64 bits, as the nearest
floating-point number otherwise. Minus zero is a floating-point number. -/
def integerLiteral? (negative : Bool) (n : Nat) : Option Number :=
  if !negative && n < UInt64.size then some (.natural n.toUInt64)
  else if negative && 0 < n && Int64.minValue.toInt ≤ -(n : Int) then
    some (.negative (Int64.ofInt (-(n : Int))))
  else finite? negative (Format.double.decimal n 0)

/-- A number after its sign. One with a fraction or an exponent is read by scaling, which does not
always give the nearest floating-point number. -/
def unsignedNumber? (negative : Bool) (cs : List Char) : Option (Number × List Char) := do
  let (whole, rest) := digitSpan cs
  if whole.isEmpty || (whole.length > 1 && whole.head? == some '0') then none
  else
    let (fraction, rest) ← fractionPart rest
    let (exponent, rest) ← exponentPart rest
    let number ←
      match fraction, exponent with
      | none, none => integerLiteral? negative (Text.digitsValue whole)
      | _, _ =>
        let numeral : Number.Numeral := ⟨whole, fraction.getD [], exponent.getD 0⟩
        finite? negative numeral.scaled
    some (number, rest)

/-- A number. -/
def number? : List Char → Option (Number × List Char)
  | '-' :: rest => unsignedNumber? true rest
  | cs => unsignedNumber? false cs

/-! ## Values -/

/-- One or more items with commas between them and `close` behind them; at most `bound` items. -/
def itemsUpTo {α : Type} (item : List Char → Option (α × List Char)) (close : Char) :
    Nat → List Char → Option (List α × List Char)
  | 0, _ => none
  | bound + 1, cs =>
    match item cs with
    | none => none
    | some (x, rest) =>
      match skipBlanks rest with
      | [] => none
      | c :: rest =>
        if c = close then some ([x], rest)
        else if c = ',' then
          (itemsUpTo item close bound rest).map fun (xs, rest) => (x :: xs, rest)
        else none

/-- No item, or items with commas between them, and `close` behind them. -/
def items {α : Type} (item : List Char → Option (α × List Char)) (close : Char)
    (cs : List Char) : Option (List α × List Char) :=
  match skipBlanks cs with
  | [] => none
  | c :: rest => if c = close then some ([], rest) else itemsUpTo item close cs.length cs

/-- A key, a colon and a value. -/
def member (value : List Char → Option (Json × List Char)) (cs : List Char) :
    Option ((String × Json) × List Char) :=
  match skipBlanks cs with
  | '"' :: rest =>
    match stringBody rest with
    | none => none
    | some (key, rest) =>
      match skipBlanks rest with
      | ':' :: rest => (value rest).map fun (v, rest) => ((String.ofList key, v), rest)
      | _ => none
  | _ => none

/-- A value inside at most so many further arrays and objects. -/
def value : Nat → List Char → Option (Json × List Char)
  | 0, cs => scalar (skipBlanks cs)
  | depth + 1, cs =>
    match skipBlanks cs with
    | '[' :: rest => (items (value depth) ']' rest).map fun (xs, rest) => (.array xs, rest)
    | '\x7b' :: rest =>
      (items (member (value depth)) '\x7d' rest).map fun (ms, rest) => (.object ms, rest)
    | cs => scalar cs
where
  /-- A value that is neither an array nor an object. -/
  scalar : List Char → Option (Json × List Char)
    | 'n' :: 'u' :: 'l' :: 'l' :: rest => some (.null, rest)
    | 't' :: 'r' :: 'u' :: 'e' :: rest => some (.bool true, rest)
    | 'f' :: 'a' :: 'l' :: 's' :: 'e' :: rest => some (.bool false, rest)
    | '"' :: rest => (stringBody rest).map fun (cs, rest) => (.string (String.ofList cs), rest)
    | cs => (number? cs).map fun (n, rest) => (.number n, rest)

/-- The value spelled by a text, with the members of objects as they are written. -/
def ofText? (text : String) : Option Json :=
  match value maxDepth text.toList with
  | some (json, rest) => if (skipBlanks rest).isEmpty then some json else none
  | none => none

/-- The canonical form of the value spelled by a text. -/
def parse? (text : String) : Option Json :=
  (ofText? text).map canonical

end DynProto.Json
