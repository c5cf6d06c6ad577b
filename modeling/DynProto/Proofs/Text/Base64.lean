import DynProto.Text.Base64
import Mathlib

/-!
# Base64 is read back

What is written in the standard alphabet is read as the octets that it was written for
(`decode_encode_standard`). It consists of ASCII symbols, so going through a text changes nothing
(`decode_text`).
-/

namespace DynProto.Base64

/-! ## Symbols -/

/-- The symbol for a number is read as the number. -/
theorem value?_symbol {n : Nat} (h : n < 64) : standard.value? (standard.symbol n) = some n := by
  have hall : ∀ n < 64, standard.value? (standard.symbol n) = some n := by decide
  exact hall n h

/-- No symbol is the padding sign. -/
theorem symbol_ne_pad {n : Nat} (h : n < 64) : standard.symbol n ≠ pad := by
  have hall : ∀ n < 64, standard.symbol n ≠ pad := by decide
  exact hall n h

/-- Symbols are ASCII. -/
theorem symbol_lt (n : Nat) : (standard.symbol n).toNat < 128 := by
  have hall : ∀ n < 64, (standard.symbol n).toNat < 128 := by decide
  rcases Nat.lt_or_ge n 64 with hlt | hge
  · exact hall n hlt
  · unfold Alphabet.symbol
    rw [if_neg (by omega), if_neg (by omega), if_neg (by omega), if_neg (by omega)]
    decide

/-- Reading a symbol gives its number. -/
theorem read_symbol (offset : Nat) {n : Nat} (h : n < 64) :
    standard.read offset (standard.symbol n) = .ok n := by
  unfold Alphabet.read
  rw [value?_symbol h]

/-! ## Quads -/

/-- The octets of the numbers that three octets are cut into. -/
theorem quadOctets_cut (x y z : UInt8) :
    quadOctets (x.toNat / 4) (x.toNat % 4 * 16 + y.toNat / 16) (y.toNat % 16 * 4 + z.toNat / 64)
      (z.toNat % 64) = [x, y, z] := by
  have hy := y.toNat_lt
  have hz := z.toNat_lt
  have hfirst : x.toNat / 4 * 4 + (x.toNat % 4 * 16 + y.toNat / 16) / 16 = x.toNat := by omega
  have hsecond : (x.toNat % 4 * 16 + y.toNat / 16) % 16 * 16
      + (y.toNat % 16 * 4 + z.toNat / 64) / 4 = y.toNat := by omega
  have hthird : (y.toNat % 16 * 4 + z.toNat / 64) % 4 * 64 + z.toNat % 64 = z.toNat := by omega
  unfold quadOctets
  rw [hfirst, hsecond, hthird]
  simp

/-- A symbol of the last quad is read, and then the rest of the quad. -/
theorem lastSymbols_symbol (offset place : Nat) {n : Nat} (h : n < 64) (rest : Bytes) :
    lastSymbols standard offset place none (standard.symbol n :: rest)
      = (lastSymbols standard offset (place + 1) none rest).map (n :: ·) := by
  rw [lastSymbols, if_neg (symbol_ne_pad h), read_symbol _ h]
  show (lastSymbols _ _ _ _ _ >>= _) = _
  cases lastSymbols standard offset (place + 1) none rest <;> rfl

/-- A last quad for one octet. -/
theorem lastQuad_one (offset : Nat) (x : UInt8) :
    lastQuad standard offset
      [standard.symbol (x.toNat / 4), standard.symbol (x.toNat % 4 * 16), pad, pad] = .ok [x] := by
  have hx := x.toNat_lt
  have hnumbers : lastSymbols standard offset 0 none
      [standard.symbol (x.toNat / 4), standard.symbol (x.toNat % 4 * 16), pad, pad]
      = .ok [x.toNat / 4, x.toNat % 4 * 16] := by
    rw [lastSymbols_symbol _ _ (by omega), lastSymbols_symbol _ _ (by omega)]
    rfl
  have hoctets := congrArg (List.take 1) (quadOctets_cut x 0 0)
  unfold lastQuad
  rw [hnumbers]
  show (if x.toNat % 4 * 16 % 16 = 0 then _ else _) = _
  rw [if_pos (Nat.mul_mod_left _ _)]
  exact congrArg Except.ok hoctets

/-- A last quad for two octets. -/
theorem lastQuad_two (offset : Nat) (x y : UInt8) :
    lastQuad standard offset
      [standard.symbol (x.toNat / 4), standard.symbol (x.toNat % 4 * 16 + y.toNat / 16),
        standard.symbol (y.toNat % 16 * 4), pad] = .ok [x, y] := by
  have hx := x.toNat_lt
  have hy := y.toNat_lt
  have hnumbers : lastSymbols standard offset 0 none
      [standard.symbol (x.toNat / 4), standard.symbol (x.toNat % 4 * 16 + y.toNat / 16),
        standard.symbol (y.toNat % 16 * 4), pad]
      = .ok [x.toNat / 4, x.toNat % 4 * 16 + y.toNat / 16, y.toNat % 16 * 4] := by
    rw [lastSymbols_symbol _ _ (by omega), lastSymbols_symbol _ _ (by omega),
      lastSymbols_symbol _ _ (by omega)]
    rfl
  have hoctets := congrArg (List.take 2) (quadOctets_cut x y 0)
  unfold lastQuad
  rw [hnumbers]
  show (if y.toNat % 16 * 4 % 4 = 0 then _ else _) = _
  rw [if_pos (Nat.mul_mod_left _ _)]
  exact congrArg Except.ok hoctets

/-- A last quad for three octets. -/
theorem lastQuad_three (offset : Nat) (x y z : UInt8) :
    lastQuad standard offset
      [standard.symbol (x.toNat / 4), standard.symbol (x.toNat % 4 * 16 + y.toNat / 16),
        standard.symbol (y.toNat % 16 * 4 + z.toNat / 64), standard.symbol (z.toNat % 64)]
      = .ok [x, y, z] := by
  have hx := x.toNat_lt
  have hy := y.toNat_lt
  have hz := z.toNat_lt
  unfold lastQuad
  rw [lastSymbols_symbol _ _ (by omega), lastSymbols_symbol _ _ (by omega),
    lastSymbols_symbol _ _ (by omega), lastSymbols_symbol _ _ (by omega)]
  exact congrArg Except.ok (quadOctets_cut x y z)

/-! ## Texts -/

/-- Something is written for every octet. -/
theorem encode_ne_nil (a : Alphabet) (x : UInt8) (bytes : Bytes) : encode a (x :: bytes) ≠ [] := by
  rcases bytes with _ | ⟨y, _ | ⟨z, rest⟩⟩ <;> simp [encode]

/-- The quads that are written are read back one after the other. -/
theorem decodeQuads_encode (offset : Nat) (bytes : Bytes) :
    decodeQuads standard offset (encode standard bytes) = .ok bytes := by
  induction bytes using encode.induct generalizing offset with
  | case1 => rfl
  | case2 x => exact lastQuad_one offset x
  | case3 x y => exact lastQuad_two offset x y
  | case4 x y z rest ih =>
    rcases rest with _ | ⟨w, rest⟩
    · exact lastQuad_three offset x y z
    · obtain ⟨next, more, hmore⟩ := List.exists_cons_of_ne_nil (encode_ne_nil standard w rest)
      have hx := x.toNat_lt
      have hy := y.toNat_lt
      have hz := z.toNat_lt
      have hrest := ih (offset + 4)
      rw [hmore] at hrest
      rw [encode, hmore, decodeQuads, read_symbol _ (by omega), read_symbol _ (by omega),
        read_symbol _ (by omega), read_symbol _ (by omega), hrest]
      show Except.ok (quadOctets _ _ _ _ ++ _) = _
      rw [quadOctets_cut]
      rfl

/-- What is written consists of whole quads. -/
theorem length_encode_mod (a : Alphabet) (bytes : Bytes) : (encode a bytes).length % 4 = 0 := by
  induction bytes using encode.induct with
  | case1 => rfl
  | case2 | case3 => simp [encode]
  | case4 x y z rest ih =>
    simp only [encode, List.length_cons]
    omega

/-- What is written is read back. -/
theorem decode_encode_standard (bytes : Bytes) :
    decode standard (encode standard bytes) = .ok bytes := by
  rcases bytes with _ | ⟨x, bytes⟩
  · rfl
  · have hmod := length_encode_mod standard (x :: bytes)
    unfold decode
    rw [List.getLast?_eq_some_getLast (encode_ne_nil standard x bytes)]
    simp only
    rw [if_neg (by omega), decodeQuads_encode]

/-- What is written is ASCII. -/
theorem lt_of_mem_encode {bytes : Bytes} : ∀ b ∈ encode standard bytes, b.toNat < 128 := by
  have hpad : pad.toNat < 128 := by decide
  induction bytes using encode.induct with
  | case1 => exact fun b hb => absurd hb List.not_mem_nil
  | case2 | case3 => simp [encode, symbol_lt, hpad]
  | case4 x y z rest ih =>
    rw [encode]
    simp only [List.forall_mem_cons]
    exact ⟨symbol_lt _, symbol_lt _, symbol_lt _, symbol_lt _, ih⟩

/-- The octets of the text with ASCII octets are these octets. -/
theorem utf8_ofList_map {bytes : Bytes} (h : ∀ b ∈ bytes, b.toNat < 128) :
    Text.utf8 (String.ofList (bytes.map fun b => Char.ofNat b.toNat)) = bytes := by
  have hascii : ∀ n < 128, String.utf8EncodeChar (Char.ofNat n) = [n.toUInt8] := by decide
  have hflat : (bytes.map fun b => Char.ofNat b.toNat).flatMap String.utf8EncodeChar = bytes := by
    induction bytes with
    | nil => rfl
    | cons b rest ih =>
      obtain ⟨hb, hrest⟩ := List.forall_mem_cons.1 h
      rw [List.map_cons, List.flatMap_cons, hascii b.toNat hb, ih hrest, Nat.toUInt8_eq,
        UInt8.ofNat_toNat]
      rfl
  unfold Text.utf8
  rw [String.toByteArray_ofList, List.utf8Encode, hflat]
  simp

/-- The text of a sequence of octets is read as the sequence. -/
theorem decode_text (bytes : Bytes) : decode standard (Text.utf8 (text bytes)) = .ok bytes := by
  unfold text
  rw [utf8_ofList_map lt_of_mem_encode, decode_encode_standard]

end DynProto.Base64
