import DynProto.Number.Format
import DynProto.Text.Decimal

/-!
# Decimal numerals of floating-point numbers

A decimal numeral is an integer times a power of ten. `Format.decimal` gives the magnitude nearest
to it, whatever its length and exponent, and `double?` reads a spelled number: an optional sign,
then a numeral or one of the words for infinity and not-a-number, in either case.
-/

namespace DynProto.Number

/-- Beyond this order of magnitude every number is zero or infinite in the formats used here. -/
def orderBound : Nat := 400

/-- The magnitude nearest to `digits * 10 ^ exponent`. -/
def Format.decimal (f : Format) (digits : Nat) (exponent : Int) : Nat :=
  if digits = 0 then 0
  else
    let order : Int := (Text.digits digits).length + exponent
    if order > orderBound then f.infinity
    else if order < -(orderBound : Int) then 0
    else
      match exponent with
      | .ofNat n => f.ofRatio (digits * Nat.pow 10 n) 1
      | .negSucc n => f.ofRatio digits (Nat.pow 10 (n + 1))

/-- A decimal numeral taken apart: the digits before and after the point, and the exponent. -/
structure Numeral where
  /-- Digits before the point. -/
  whole : List Char
  /-- Digits after the point. -/
  fraction : List Char
  /-- Power of ten written out after the digits. -/
  exponent : Int

/-- The magnitude nearest to a numeral. -/
def Numeral.magnitude (n : Numeral) (f : Format) : Nat :=
  f.decimal (Text.digitsValue (n.whole ++ n.fraction)) (n.exponent - n.fraction.length)

/-- The exponent part of a numeral: nothing, or `e` and an integer, up to the end of the text. -/
def exponent? : List Char → Option Int
  | [] => some 0
  | c :: rest => if c = 'e' ∨ c = 'E' then Text.integer? rest else none

/-- The numeral spelled by a text: digits with an optional point, on at least one side of which
there is a digit, and an optional exponent. -/
def numeral? (cs : List Char) : Option Numeral :=
  let whole := cs.takeWhile Char.isDigit
  match cs.dropWhile Char.isDigit with
  | '.' :: rest =>
    let fraction := rest.takeWhile Char.isDigit
    if whole.isEmpty && fraction.isEmpty then none
    else (exponent? (rest.dropWhile Char.isDigit)).map fun e => ⟨whole, fraction, e⟩
  | rest => if whole.isEmpty then none else (exponent? rest).map fun e => ⟨whole, [], e⟩

/-- The magnitude of an unsigned number: a numeral, `inf`, `infinity` or `nan`. -/
def magnitude? (cs : List Char) : Option Nat :=
  let word := cs.map Char.toLower
  if word = ['i', 'n', 'f'] ∨ word = ['i', 'n', 'f', 'i', 'n', 'i', 't', 'y'] then
    some Format.double.infinity
  else if word = ['n', 'a', 'n'] then some Format.double.quietNaN
  else (numeral? cs).map fun n => n.magnitude .double

/-- The 64-bit number that a text spells. -/
def double? (cs : List Char) : Option UInt64 :=
  match cs with
  | '-' :: rest => (magnitude? rest).map fun m => (Format.double.signed true m).toUInt64
  | '+' :: rest => (magnitude? rest).map fun m => m.toUInt64
  | _ => (magnitude? cs).map fun m => m.toUInt64

end DynProto.Number
