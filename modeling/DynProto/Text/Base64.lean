import DynProto.Text.Decimal
import DynProto.Text.Utf8

/-!
# Base64

Octets in groups of three are written as four symbols of six bits each; a last group that is short
is filled up with padding signs. Two alphabets are in use, which differ in the last two symbols.

Reading is canonical: padding must be there, and the bits of the last symbol that stand for no
octet must be zero. All quads but the last are checked first, symbol by symbol; of several faults
in the last quad the order of the checks in `lastQuad` decides.
-/

namespace DynProto.Base64

/-- The symbols for 62 and 63; the other symbols are letters and digits. -/
structure Alphabet where
  /-- The symbol for 62. -/
  sixtyTwo : UInt8
  /-- The symbol for 63. -/
  sixtyThree : UInt8

/-- The alphabet with plus and slash. -/
def standard : Alphabet := ⟨43, 47⟩

/-- The alphabet with minus and underscore, safe in file names and addresses. -/
def urlSafe : Alphabet := ⟨45, 95⟩

/-- The padding sign. -/
def pad : UInt8 := 61

/-- The symbol for a number below 64. -/
def Alphabet.symbol (a : Alphabet) (n : Nat) : UInt8 :=
  if n < 26 then (65 + n).toUInt8
  else if n < 52 then (71 + n).toUInt8
  else if n < 62 then (n - 4).toUInt8
  else if n = 62 then a.sixtyTwo
  else a.sixtyThree

/-- The number that an octet is the symbol for. -/
def Alphabet.value? (a : Alphabet) (symbol : UInt8) : Option Nat :=
  let n := symbol.toNat
  if 65 ≤ n ∧ n ≤ 90 then some (n - 65)
  else if 97 ≤ n ∧ n ≤ 122 then some (n - 71)
  else if 48 ≤ n ∧ n ≤ 57 then some (n + 4)
  else if symbol = a.sixtyTwo then some 62
  else if symbol = a.sixtyThree then some 63
  else none

/-- Why a text is no Base64. -/
inductive Fault where
  /-- An octet that may not stand at this offset. -/
  | symbol (octet : UInt8) (offset : Nat)
  /-- The symbols before this offset are too few for an octet. -/
  | length (offset : Nat)
  /-- The last symbol has bits that stand for no octet. -/
  | lastSymbol (octet : UInt8) (offset : Nat)
  /-- The padding does not fill the last quad. -/
  | padding
deriving DecidableEq, Repr

/-- The wording of a fault. -/
def Fault.message : Fault → String
  | symbol octet offset =>
    "Invalid symbol " ++ Text.natural octet.toNat ++ ", offset " ++ Text.natural offset ++ "."
  | length offset => "Invalid input length: " ++ Text.natural offset
  | lastSymbol octet offset =>
    "Invalid last symbol " ++ Text.natural octet.toNat ++ ", offset " ++ Text.natural offset ++ "."
  | padding => "Invalid padding"

/-! ## Writing -/

/-- The symbols of a sequence of octets. -/
def encode (a : Alphabet) : Bytes → Bytes
  | [] => []
  | [x] => [a.symbol (x.toNat / 4), a.symbol (x.toNat % 4 * 16), pad, pad]
  | [x, y] =>
    [a.symbol (x.toNat / 4), a.symbol (x.toNat % 4 * 16 + y.toNat / 16),
      a.symbol (y.toNat % 16 * 4), pad]
  | x :: y :: z :: rest =>
    a.symbol (x.toNat / 4) :: a.symbol (x.toNat % 4 * 16 + y.toNat / 16) ::
      a.symbol (y.toNat % 16 * 4 + z.toNat / 64) :: a.symbol (z.toNat % 64) :: encode a rest

/-! ## Reading -/

/-- The number of a symbol, or a fault at its offset. -/
def Alphabet.read (a : Alphabet) (offset : Nat) (octet : UInt8) : Except Fault Nat :=
  match a.value? octet with
  | some n => .ok n
  | none => .error (.symbol octet offset)

/-- The octets that four six-bit numbers spell. -/
def quadOctets (p q r s : Nat) : Bytes :=
  [(p * 4 + q / 16).toUInt8, (q % 16 * 16 + r / 4).toUInt8, (r % 4 * 64 + s).toUInt8]

/-- The numbers of the symbols in the last quad and the offset of its first padding sign, both as
far as the quad has been read: `offset` is that of the quad, `place` the number of octets read,
`padded` the place of the first padding sign. -/
def lastSymbols (a : Alphabet) (offset place : Nat) (padded : Option Nat) :
    Bytes → Except Fault (List Nat)
  | [] => .ok []
  | octet :: rest =>
    if octet = pad then
      if place < 2 then .error (.symbol octet (offset + place))
      else lastSymbols a offset (place + 1) (some (padded.getD place)) rest
    else
      match padded with
      | some first => .error (.symbol pad (offset + first))
      | none => do
        let n ← a.read (offset + place) octet
        let more ← lastSymbols a offset (place + 1) none rest
        .ok (n :: more)

/-- The octets of the last quad, which holds one to four octets of text. -/
def lastQuad (a : Alphabet) (offset : Nat) (quad : Bytes) : Except Fault Bytes := do
  let numbers ← lastSymbols a offset 0 none quad
  let last := quad.getD (numbers.length - 1) 0
  if numbers.length < 2 then .error (.length (offset + numbers.length))
  else if quad.length ≠ 4 then .error .padding
  else
    match numbers with
    | [p, q] =>
      if q % 16 = 0 then .ok ((quadOctets p q 0 0).take 1)
      else .error (.lastSymbol last (offset + 1))
    | [p, q, r] =>
      if r % 4 = 0 then .ok ((quadOctets p q r 0).take 2)
      else .error (.lastSymbol last (offset + 2))
    | [p, q, r, s] => .ok (quadOctets p q r s)
    | _ => .error .padding

/-- The octets of a text from the quad at `offset` on. -/
def decodeQuads (a : Alphabet) (offset : Nat) : Bytes → Except Fault Bytes
  | [] => .ok []
  | p :: q :: r :: s :: next :: rest => do
    let p ← a.read offset p
    let q ← a.read (offset + 1) q
    let r ← a.read (offset + 2) r
    let s ← a.read (offset + 3) s
    let more ← decodeQuads a (offset + 4) (next :: rest)
    .ok (quadOctets p q r s ++ more)
  | quad => lastQuad a offset quad

/-- The octets that a text spells. A text that is one octet too long is refused at that octet
before all else if it is no symbol and no padding sign. -/
def decode (a : Alphabet) (text : Bytes) : Except Fault Bytes :=
  match text.getLast? with
  | none => .ok []
  | some last =>
    if text.length % 4 = 1 ∧ last ≠ pad ∧ a.value? last = none then
      .error (.symbol last (text.length - 1))
    else decodeQuads a 0 text

/-- The text of a sequence of octets in the standard alphabet. -/
def text (bytes : Bytes) : String :=
  String.ofList ((encode standard bytes).map fun b => Char.ofNat b.toNat)

end DynProto.Base64
