import DynProto.Wire.Reader

/-!
# Varints

A natural number in groups of seven bits, the lowest group first; the top bit of an octet says that
another one follows. Numbers up to 64 bits are read, in at most ten octets; the tenth holds one bit.

Signed numbers are folded onto the natural ones by `zigzag`: 0, -1, 1, -2, … become 0, 1, 2, 3, ….
-/

namespace DynProto.Wire

/-- The octets of a number. -/
def varint (n : Nat) : Bytes :=
  if n < 128 then [n.toUInt8] else (n % 128 + 128).toUInt8 :: varint (n / 128)

/-- The number at the front, spread over at most so many octets. -/
def readVarint : Nat → Bytes → Except Fault (Nat × Bytes)
  | 0, _ => .error .varint
  | _, [] => .error .varint
  | left + 1, b :: rest =>
    if b < 128 then
      if left = 0 ∧ 1 < b then .error .varint else .ok (b.toNat, rest)
    else do
      let (high, rest) ← readVarint left rest
      .ok (b.toNat - 128 + 128 * high, rest)

theorem length_of_readVarint {left : Nat} {bytes rest : Bytes} {n : Nat}
    (h : readVarint left bytes = .ok (n, rest)) : rest.length < bytes.length := by
  induction left generalizing bytes rest n with
  | zero => simp [readVarint] at h
  | succ left ih =>
    cases bytes with
    | nil => simp [readVarint] at h
    | cons b bytes =>
      simp only [readVarint] at h
      split at h
      · split at h
        · cases h
        · cases h
          simp
      · obtain ⟨⟨high, rest'⟩, h₁, h₂⟩ := except_bind_eq_ok.1 h
        cases h₂
        have := ih h₁
        simp only [List.length_cons]
        omega

/-- A number of at most 64 bits. -/
def Reader.varint : Reader Fault Nat where
  run := readVarint 10
  shorter := length_of_readVarint

/-- The natural number that stands for a signed one. -/
def zigzag (n : Int) : Nat :=
  if 0 ≤ n then 2 * n.toNat else 2 * n.natAbs - 1

/-- The signed number that a natural one stands for. -/
def unzigzag (n : Nat) : Int :=
  if n % 2 = 0 then (n / 2 : Nat) else -(n / 2 + 1 : Nat)

theorem unzigzag_zigzag (n : Int) : unzigzag (zigzag n) = n := by
  unfold zigzag
  split
  · unfold unzigzag
    split <;> omega
  · unfold unzigzag
    split <;> omega

end DynProto.Wire
