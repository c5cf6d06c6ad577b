import DynProto.Number.Numeral

/-!
# Shortest decimal text of a floating-point number

A finite magnitude is written with the fewest digits that read back as the same magnitude. On the
decimal grid with a given number of digits only the two neighbours of the value can be nearest to
it, so each grid is tried with these two, coarsest grid first: the first one that reads back wins,
of two the nearer, and of two equally near the even one.

Two layouts of the digits are given: `plain` never uses an exponent, `scientific` uses one for very
large and very small numbers and always has a fraction otherwise.
-/

namespace DynProto.Number

/-- The decimal number `digits * 10 ^ exponent`. -/
structure Decimal where
  /-- The integer in front. -/
  digits : Nat
  /-- The power of ten behind. -/
  exponent : Int
deriving DecidableEq, Repr

namespace Format

variable (f : Format)

/-- The number of zeros between the point and the first digit of `num / den`, which is below one;
at most `bound` are counted. -/
def leadingZeros (num den : Nat) : Nat → Nat
  | 0 => 0
  | bound + 1 => if den ≤ 10 * num then 0 else leadingZeros (10 * num) den bound + 1

/-- The least exponent of a power of ten above a finite, nonzero magnitude. -/
def order (magnitude : Nat) : Int :=
  let units := f.units magnitude
  let one := Nat.pow 2 f.scale
  if one ≤ units then (Text.digits (units / one)).length
  else -(leadingZeros units one f.scale : Int)

/-- The neighbour of a magnitude on the grid of multiples of `10 ^ exponent` that reads back as the
magnitude, if one does. -/
def neighbour? (magnitude : Nat) (exponent : Int) : Option Decimal :=
  let units := f.units magnitude
  let one := Nat.pow 2 f.scale
  let (num, den) :=
    match exponent with
    | .ofNat n => (units, one * Nat.pow 10 n)
    | .negSucc n => (units * Nat.pow 10 (n + 1), one)
  let below := num / den
  let above := below + 1
  let twice := 2 * (num % den)
  let nearer := if twice < den then below else if den < twice then above else below + below % 2
  let farther := if nearer = below then above else below
  if f.decimal nearer exponent = magnitude then some ⟨nearer, exponent⟩
  else if f.decimal farther exponent = magnitude then some ⟨farther, exponent⟩
  else none

/-- The first grid, from `count` digits on, with a neighbour that reads back; `bound` grids are
tried. -/
def firstGrid (magnitude count : Nat) : Nat → Decimal
  | 0 => ⟨0, 0⟩
  | bound + 1 =>
    match f.neighbour? magnitude (f.order magnitude - count) with
    | some decimal => decimal
    | none => firstGrid magnitude (count + 1) bound

/-- The shortest decimal that reads back as a finite, nonzero magnitude. Seventeen digits always
do. -/
def shortest (magnitude : Nat) : Decimal :=
  f.firstGrid magnitude 1 17

end Format

/-- The digits of a decimal without trailing zeros, and the power of ten behind them. -/
def Decimal.significant (d : Decimal) : List Char × Int :=
  let zeros := ((Text.digits d.digits).reverse.takeWhile (· = '0')).length
  let kept := (Text.digits d.digits).length - zeros
  ((Text.digits d.digits).take kept, d.exponent + zeros)

/-- Zeros. -/
def zeros (n : Nat) : List Char :=
  List.replicate n '0'

/-- Digits times a power of ten in positional notation, without an exponent. -/
def positional (digits : List Char) (exponent : Int) : List Char :=
  let point : Int := digits.length + exponent
  if 0 ≤ exponent then digits ++ zeros exponent.toNat
  else if 0 < point then digits.take point.toNat ++ '.' :: digits.drop point.toNat
  else '0' :: '.' :: zeros (-point).toNat ++ digits

/-- How a magnitude of zero, and digits times a power of ten, are laid out. -/
structure Layout where
  /-- The text of zero. -/
  zero : List Char
  /-- The text of nonzero digits times a power of ten. -/
  nonzero : List Char → Int → List Char

/-- Positional notation at every size, with a fraction only where there is one. -/
def plain : Layout := ⟨['0'], positional⟩

/-- Positional notation with at least one place after the point from `1e-5` up to `1e16`, beyond
that one digit, the fraction if there is one, and a signed exponent. -/
def scientific : Layout where
  zero := ['0', '.', '0']
  nonzero digits exponent :=
    let point : Int := digits.length + exponent
    if -5 < point ∧ point ≤ 16 then
      positional digits exponent ++ if 0 ≤ exponent then ['.', '0'] else []
    else
      let lead := digits.take 1
      let fraction := digits.drop 1
      let power := point - 1
      lead ++ (if fraction.isEmpty then [] else '.' :: fraction) ++
        'e' :: (if 0 ≤ power then '+' :: Text.digits power.toNat else Text.integerChars power)

/-- The text of a finite 64-bit number in a layout. -/
def Layout.render (layout : Layout) (word : UInt64) : List Char :=
  let magnitude := Format.double.magnitude word.toNat
  let unsigned :=
    if magnitude = 0 then layout.zero
    else
      let (digits, exponent) := (Format.double.shortest magnitude).significant
      layout.nonzero digits exponent
  if Format.double.isNegative word.toNat then '-' :: unsigned else unsigned

end DynProto.Number
