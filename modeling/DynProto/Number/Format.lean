/-!
# Binary floating-point formats

Binary floating-point numbers are handled as the words that store them: the sign bit on top, then
the exponent field, then the fraction. Every question about their values is answered in exact
integer arithmetic. The finite magnitudes of a format are whole multiples of one smallest step,
`2 ^ -scale`, so the value of a word is a natural number of steps (`Format.units`), and rounding
finds the word whose number of steps is nearest (`Format.nearest`).

Rounding works on the grid of the result: the exponent field counts the doublings of the step, and
a mantissa that rounds up to the next power of two carries into that field by plain addition.
-/

namespace DynProto.Number

/-- The shape of a binary interchange format. -/
structure Format where
  /-- Width of the fraction field. -/
  fractionBits : Nat
  /-- Width of the exponent field. -/
  exponentBits : Nat

/-- The quotient of two numbers rounded to the nearest integer, a half to the even neighbour. -/
def roundHalfEven (num den : Nat) : Nat :=
  let quotient := num / den
  let remainder := num % den
  if 2 * remainder < den then quotient
  else if den < 2 * remainder then quotient + 1
  else quotient + quotient % 2

namespace Format

/-- The format of 32-bit numbers. -/
def single : Format := ⟨23, 8⟩

/-- The format of 64-bit numbers. -/
def double : Format := ⟨52, 11⟩

variable (f : Format)

/-- The smallest positive magnitude is `2 ^ -scale`. -/
def scale : Nat :=
  Nat.pow 2 (f.exponentBits - 1) - 2 + f.fractionBits

/-- The weight of the fraction field's end: words that differ by it differ by one exponent. -/
def fractionSize : Nat :=
  Nat.pow 2 f.fractionBits

/-- The sign bit. -/
def signBit : Nat :=
  Nat.pow 2 (f.fractionBits + f.exponentBits)

/-- The magnitude that stands for infinity. -/
def infinity : Nat :=
  (Nat.pow 2 f.exponentBits - 1) * f.fractionSize

/-- The quiet not-a-number with an empty payload. -/
def quietNaN : Nat :=
  f.infinity + Nat.pow 2 (f.fractionBits - 1)

/-- A word without its sign. -/
def magnitude (word : Nat) : Nat :=
  word % f.signBit

/-- Whether the sign bit is set. -/
def isNegative (word : Nat) : Bool :=
  f.signBit ≤ word

/-- Whether a word is a not-a-number. -/
def isNaN (word : Nat) : Bool :=
  f.infinity < f.magnitude word

/-- Whether a word stands for a finite number. -/
def isFinite (word : Nat) : Bool :=
  f.magnitude word < f.infinity

/-- A magnitude with a sign. -/
def signed (negative : Bool) (magnitude : Nat) : Nat :=
  if negative then f.signBit + magnitude else magnitude

/-- The value of a finite magnitude as a multiple of `2 ^ -scale`. -/
def units (magnitude : Nat) : Nat :=
  let exponent := magnitude / f.fractionSize
  let fraction := magnitude % f.fractionSize
  if exponent = 0 then fraction
  else (f.fractionSize + fraction) * Nat.pow 2 (exponent - 1)

/-- The magnitude nearest to `num / den` multiples of `2 ^ -scale`, a half going to the even
neighbour; infinity where the nearest one lies beyond the finite ones. -/
def nearest (num den : Nat) : Nat :=
  let shift := (num / den).log2 - f.fractionBits
  min f.infinity (shift * f.fractionSize + roundHalfEven num (den * Nat.pow 2 shift))

/-- The magnitude nearest to `num / den`. -/
def ofRatio (num den : Nat) : Nat :=
  f.nearest (num * Nat.pow 2 f.scale) den

/-- The word nearest to an integer. -/
def ofInt (n : Int) : Nat :=
  f.signed (n < 0) (f.ofRatio n.natAbs 1)

/-- The value of a finite word as a multiple of `2 ^ -scale`. -/
def signedUnits (word : Nat) : Int :=
  let n := Int.ofNat (f.units (f.magnitude word))
  if f.isNegative word then -n else n

/-- Whether the number of a finite word is not greater than that of another one. -/
def atMost (a b : Nat) : Bool :=
  f.signedUnits a ≤ f.signedUnits b

/-- Whether a word stands for a finite number without a fraction. -/
def isIntegral (word : Nat) : Bool :=
  f.isFinite word && f.units (f.magnitude word) % Nat.pow 2 f.scale == 0

/-- The integer that is left of a finite number without its fraction. -/
def truncate (word : Nat) : Int :=
  let n := Int.ofNat (f.units (f.magnitude word) / Nat.pow 2 f.scale)
  if f.isNegative word then -n else n

/-- The integer that a finite word stands for, if it stands for one; either zero is `0`. -/
def integer? (word : Nat) : Option Int :=
  let units := f.units (f.magnitude word)
  if f.isFinite word && units % Nat.pow 2 f.scale == 0 then
    let n := Int.ofNat (units / Nat.pow 2 f.scale)
    some (if f.isNegative word then -n else n)
  else none

/-- The word of one format nearest to the number that a word of another one stands for. The sign
is kept; a not-a-number stays one, is made quiet, and keeps the leading bits of its payload. -/
def convert (source target : Format) (word : Nat) : Nat :=
  let magnitude := source.magnitude word
  target.signed (source.isNegative word) <|
    if source.infinity < magnitude then
      let payload := magnitude - source.infinity
      let kept :=
        if source.fractionBits ≤ target.fractionBits then
          payload * Nat.pow 2 (target.fractionBits - source.fractionBits)
        else payload / Nat.pow 2 (source.fractionBits - target.fractionBits)
      let half := Nat.pow 2 (target.fractionBits - 1)
      target.quietNaN + kept % half
    else if magnitude = source.infinity then target.infinity
    else target.ofRatio (source.units magnitude) (Nat.pow 2 source.scale)

/-- Equality of the numbers that two words stand for: zeros are equal whatever their signs, and a
not-a-number equals nothing. -/
def sameNumber (a b : Nat) : Bool :=
  !f.isNaN a && !f.isNaN b && (a == b || (f.magnitude a == 0 && f.magnitude b == 0))

end Format

/-- A 32-bit number as a 64-bit one; the value is unchanged. -/
def widen (word : UInt32) : UInt64 :=
  (Format.convert .single .double word.toNat).toUInt64

/-- The 32-bit number nearest to a 64-bit one. -/
def narrow (word : UInt64) : UInt32 :=
  (Format.convert .double .single word.toNat).toUInt32

end DynProto.Number
