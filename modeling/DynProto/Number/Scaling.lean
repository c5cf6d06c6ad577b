import DynProto.Number.Numeral

/-!
# Reading numerals by scaling

A numeral may be read without exact arithmetic on all of its digits: the leading digits that fit 64
bits are rounded to a floating-point number, which is then multiplied with a power of ten or divided
by one. Every step rounds, so what is read may lie beside the magnitude nearest to the numeral
(`Numeral.magnitude`). Numbers with a fraction or an exponent are read this way in JSON text.
-/

namespace DynProto.Number

namespace Format

variable (f : Format)

/-- The magnitude nearest to the product of two finite ones. -/
def mul (a b : Nat) : Nat :=
  f.ofRatio (f.units a * f.units b) (Nat.pow 2 f.scale * Nat.pow 2 f.scale)

/-- The magnitude nearest to the quotient of two finite ones. -/
def div (a b : Nat) : Nat :=
  f.ofRatio (f.units a) (f.units b)

/-- The magnitude nearest to a power of ten. -/
def powerOfTen (exponent : Nat) : Nat :=
  f.ofRatio (Nat.pow 10 exponent) 1

end Format

/-- The exponent of the greatest power of ten that is finite in 64 bits. -/
def maxPower : Nat := 308

/-- A finite magnitude times a power of ten. A division by more than the greatest finite power is
made in steps; what is multiplied with more than that is infinite, unless it is zero. -/
def scaleByTen (magnitude : Nat) (exponent : Int) : Nat :=
  if magnitude = 0 then 0
  else if exponent < -(maxPower : Int) then
    scaleByTen (Format.double.div magnitude (Format.double.powerOfTen maxPower))
      (exponent + maxPower)
  else if exponent < 0 then Format.double.div magnitude (Format.double.powerOfTen exponent.natAbs)
  else if exponent ≤ maxPower then
    Format.double.mul magnitude (Format.double.powerOfTen exponent.natAbs)
  else Format.double.infinity
termination_by exponent.natAbs
decreasing_by
  unfold maxPower at *
  omega

/-- The number that stands for digits behind a number, of which as many are taken as fit 64 bits,
and the digits that are left. -/
def leading (n : Nat) : List Char → Nat × List Char
  | [] => (n, [])
  | c :: rest =>
    let next := 10 * n + Text.digitValue c
    if next < UInt64.size then leading next rest else (n, c :: rest)

/-- The magnitude of a numeral, read by scaling. Of the digits that do not fit 64 bits those before
the point count as zeros, and those after it are dropped. -/
def Numeral.scaled (n : Numeral) : Nat :=
  let (whole, zeros) := leading 0 n.whole
  -- a digit after the point may fit where one before it did not
  let (significand, dropped) := leading whole n.fraction
  scaleByTen (Format.double.ofRatio significand 1)
    (n.exponent + zeros.length - (n.fraction.length - dropped.length : Nat))

end DynProto.Number
