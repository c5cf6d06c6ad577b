import DynProto.Plain.Conversion
import DynProto.Proofs.Number.Exact
import DynProto.Proofs.Plain.Wide
import DynProto.Proofs.Record.Canonical
import DynProto.Proofs.Text.Base64
import DynProto.Proofs.Traversal

/-!
# Scalars, enum numbers and map keys are read back

The JSON value that is written for a scalar value is read as the same value, bit for bit, by every
kind that the value fits, unless it is a not-a-number (`exists_json_of_fits`). The text of a map key
is read as the key (`readKey_text`), so the keys of a map stay apart as texts.
-/

namespace DynProto

/-- A floating-point value that is a not-a-number. -/
def Value.isNaN : Value → Bool
  | f32 word => Number.Format.single.isNaN word.toNat
  | f64 word => Number.Format.double.isNaN word.toNat
  | _ => false

/-! ## Integers as texts -/

namespace Text

/-- A text without blanks is not trimmed. -/
theorem trim_of_not_isBlank {cs : List Char} (h : ∀ c ∈ cs, isBlank c = false) : trim cs = cs := by
  have hdrop : ∀ cs : List Char, (∀ c ∈ cs, isBlank c = false) → cs.dropWhile isBlank = cs := by
    intro cs h
    cases cs with
    | nil => rfl
    | cons c cs => rw [List.dropWhile_cons, h c List.mem_cons_self, if_neg Bool.false_ne_true]
  unfold trim
  rw [hdrop cs h, hdrop cs.reverse (by simpa using h), List.reverse_reverse]

/-- A digit is not blank. -/
theorem isBlank_of_isDigit {c : Char} (h : c.isDigit = true) : isBlank c = false := by
  have hbounds : 48 ≤ c.toNat ∧ c.toNat ≤ 57 := by
    simp only [Char.isDigit, Bool.and_eq_true, decide_eq_true_eq] at h
    exact ⟨h.1, h.2⟩
  simp [isBlank]
  omega

/-- The digits of a number are not blank. -/
theorem trim_digits (n : Nat) : trim (digits n) = digits n :=
  trim_of_not_isBlank fun c hc =>
    isBlank_of_isDigit (List.all_eq_true.1 (all_isDigit_digits n) c hc)

/-- The characters of an integer are not blank. -/
theorem trim_integerChars (n : Int) : trim (integerChars n) = integerChars n := by
  cases n with
  | ofNat n => exact trim_digits n
  | negSucc n =>
    refine trim_of_not_isBlank (List.forall_mem_cons.2 ⟨by decide, fun c hc => ?_⟩)
    exact isBlank_of_isDigit (List.all_eq_true.1 (all_isDigit_digits (n + 1)) c hc)

end Text

namespace Plain

open DynProto.Number (Format)
open Wire (except_bind_eq_ok)

/-! ## Integers -/

/-- The text of an integer is read as the integer. -/
theorem readInteger_integer {n : Int} (h : fitsWide true n = true) :
    readInteger true (.string (Text.integer n)) = .ok n := by
  have hspelled : (Text.integer? (Text.trim (Text.integer n).toList)).filter (fitsWide true)
      = some n := by
    rw [Text.integer, String.toList_ofList, Text.trim_integerChars, Text.integer?_integerChars]
    exact Option.filter_eq_some_iff.2 ⟨rfl, h⟩
  unfold readInteger
  simp only [if_true, hspelled]

/-- The text of a natural number is read as the number. -/
theorem readInteger_natural {n : Nat} (h : fitsWide false n = true) :
    readInteger false (.string (Text.natural n)) = .ok n := by
  have hspelled : ((Text.unsigned? (Text.trim (Text.natural n).toList)).map Int.ofNat).filter
      (fitsWide false) = some (n : Int) := by
    rw [Text.natural, String.toList_ofList, Text.trim_digits, Text.unsigned?_digits]
    exact Option.filter_eq_some_iff.2 ⟨rfl, h⟩
  unfold readInteger
  simp only [Bool.false_eq_true, if_false, hspelled]

/-- A number that stands for an integer is read as the integer. -/
theorem readInteger_number {signed : Bool} {number : Json.Number} {n : Int}
    (hnumber : number.toInt? = some n) (h : fitsWide signed n = true) :
    readInteger signed (.number number) = .ok n := by
  have hspelled : number.toInt?.filter (fitsWide signed) = some n :=
    Option.filter_eq_some_iff.2 ⟨hnumber, h⟩
  unfold readInteger
  simp only [wideOfNumber?_eq, hspelled]

/-- A signed 64-bit integer fits 64 bits with a sign. -/
theorem fitsWide_int64 (n : Int64) : fitsWide true n.toInt = true := by
  have hlo := n.le_toInt
  have hhi := n.toInt_lt
  simp only [fitsWide, if_true, Bool.and_eq_true, decide_eq_true_eq]
  exact ⟨hlo, Int.le_of_lt_add_one hhi⟩

/-- A signed 32-bit integer fits 64 bits with a sign. -/
theorem fitsWide_int32 (n : Int32) : fitsWide true n.toInt = true := by
  rw [← Int32.toInt_toInt64]
  exact fitsWide_int64 n.toInt64

/-- An unsigned 64-bit integer fits 64 bits without a sign. -/
theorem fitsWide_uint64 (n : UInt64) : fitsWide false n.toNat = true := by
  have hhi := n.toNat_lt
  simp only [fitsWide, Bool.false_eq_true, if_false, Bool.and_eq_true, decide_eq_true_eq]
  exact ⟨Int.natCast_nonneg _, Int.ofNat_lt.2 hhi⟩

/-- An unsigned 32-bit integer fits 64 bits without a sign. -/
theorem fitsWide_uint32 (n : UInt32) : fitsWide false n.toNat = true := by
  rw [← UInt32.toNat_toUInt64]
  exact fitsWide_uint64 n.toUInt64

/-- The number of a signed 32-bit integer stands for it. -/
theorem toInt?_ofInt32 (n : Int32) : (Json.Number.ofInt32 n).toInt? = some n.toInt := by
  unfold Json.Number.ofInt32
  split
  · exact congrArg some (Int32.toInt_toInt64 n)
  · rename_i hneg
    have hpos : 0 ≤ n.toInt := by
      rw [Int32.lt_iff_toInt_lt] at hneg
      exact Int.not_lt.1 hneg
    have hhi := n.toInt_lt
    show some (Int.ofNat (n.toInt.toNat.toUInt64.toNat)) = _
    rw [Nat.toUInt64_eq, UInt64.toNat_ofNat', Nat.mod_eq_of_lt (by omega)]
    exact congrArg some (Int.toNat_of_nonneg hpos)

/-- A signed 32-bit integer fits 32 bits. -/
theorem fitsInt32_toInt (n : Int32) : fitsInt32 n.toInt = true := by
  simp only [fitsInt32, Bool.and_eq_true, decide_eq_true_eq]
  exact ⟨n.le_toInt, Int.le_of_lt_add_one n.toInt_lt⟩

/-- A signed 32-bit integer is read as such. -/
theorem readInt32_of_readInteger (kind : Scalar) {json : Json} {n : Int32}
    (h : readInteger true json = .ok n.toInt) : readInt32 kind json = .ok n := by
  refine except_bind_eq_ok.2 ⟨n.toInt, h, ?_⟩
  rw [if_pos (fitsInt32_toInt n), Int32.ofInt_toInt]

/-- An unsigned 32-bit integer is read as such. -/
theorem readUInt32_of_readInteger (kind : Scalar) {json : Json} {n : UInt32}
    (h : readInteger false json = .ok n.toNat) : readUInt32 kind json = .ok n := by
  have hlt : (n.toNat : Int) < UInt32.size := Int.ofNat_lt.2 n.toNat_lt_size
  refine except_bind_eq_ok.2 ⟨n.toNat, h, ?_⟩
  rw [if_pos hlt, Int.toNat_natCast, Nat.toUInt32_eq, UInt32.ofNat_toNat]

/-! ## Floating-point numbers -/

/-- A 64-bit number that is no not-a-number is read back. -/
theorem readDouble_writeDouble {word : UInt64} (h : Format.double.isNaN word.toNat = false) :
    readDouble (writeDouble word) = .ok word := by
  unfold writeDouble
  rcases Number.Format.finite_or_infinite h with hfinite | hinfinite
  · rw [if_pos hfinite]
    rfl
  · have hinfinite' : ¬ Format.double.isFinite word.toNat = true := by
      unfold Format.isFinite
      rw [hinfinite]
      decide
    have hword := Number.Format.signed_magnitude .double word.toNat_lt
    rw [hinfinite] at hword
    rw [if_neg hinfinite', h, if_neg Bool.false_ne_true]
    have hself : word.toNat.toUInt64 = word := by rw [Nat.toUInt64_eq, UInt64.ofNat_toNat]
    rcases hneg : Format.double.isNegative word.toNat
    · rw [hneg] at hword
      rw [← hself, ← hword]
      rfl
    · rw [hneg] at hword
      rw [← hself, ← hword]
      rfl

/-- No finite 32-bit number exceeds the largest there is. -/
theorem magnitude_widen_le_maxSingle {word : UInt32}
    (h : Format.single.isFinite word.toNat = true) :
    Format.double.magnitude (Number.widen word).toNat ≤ maxSingle := by
  have hle : Format.single.magnitude word.toNat
      ≤ Format.single.magnitude (Format.single.infinity - 1).toUInt32.toNat :=
    Nat.le_sub_one_of_lt (of_decide_eq_true h)
  exact Nat.le_trans (Number.magnitude_widen_le h (by decide) hle) (Nat.mod_le _ _)

/-- A 32-bit number that is widened is not too large for 32 bits. -/
theorem singleOfDouble_widen {word : UInt32} (h : Format.single.isNaN word.toNat = false) :
    singleOfDouble (Number.widen word) = .ok word := by
  have hrange : ¬ (Format.double.isFinite (Number.widen word).toNat
      && decide (maxSingle < Format.double.magnitude (Number.widen word).toNat)) = true := by
    rw [Bool.and_eq_true, decide_eq_true_eq, not_and, Nat.not_lt]
    intro hfinite
    rcases Number.Format.finite_or_infinite h with hsingle | hinfinite
    · exact magnitude_widen_le_maxSingle hsingle
    · have hlt : Format.double.infinity < Format.double.signBit := by decide
      have hmagnitude := of_decide_eq_true hfinite
      rw [Number.widen_of_infinite hinfinite, Format.magnitude_signed _ _ hlt] at hmagnitude
      exact absurd hmagnitude (Nat.lt_irrefl _)
  unfold singleOfDouble
  rw [if_neg hrange, Number.narrow_widen h]

/-! ## Scalar values -/

/-- A signed 32-bit integer is read by every kind that it fits. -/
theorem readScalar_i32 {kind : Scalar} {n : Int32} (h : (Value.i32 n).fits kind = true)
    {json : Json} (hread : readInteger true json = .ok n.toInt) :
    readScalar kind json = .ok (.i32 n) := by
  have hread := readInt32_of_readInteger kind hread
  simp only [Value.fits, Bool.or_eq_true, beq_iff_eq] at h
  rcases h with (rfl | rfl) | rfl <;> exact except_map_eq_ok.2 ⟨n, hread, rfl⟩

/-- An unsigned 32-bit integer is read by every kind that it fits. -/
theorem readScalar_u32 {kind : Scalar} {n : UInt32} (h : (Value.u32 n).fits kind = true)
    {json : Json} (hread : readInteger false json = .ok n.toNat) :
    readScalar kind json = .ok (.u32 n) := by
  have hread := readUInt32_of_readInteger kind hread
  simp only [Value.fits, Bool.or_eq_true, beq_iff_eq] at h
  rcases h with rfl | rfl <;> exact except_map_eq_ok.2 ⟨n, hread, rfl⟩

/-- A signed 64-bit integer is read by every kind that it fits. -/
theorem readScalar_i64 {kind : Scalar} {n : Int64} (h : (Value.i64 n).fits kind = true) :
    readScalar kind (.string (Text.integer n.toInt)) = .ok (.i64 n) := by
  have hread := readInteger_integer (fitsWide_int64 n)
  have hself : Value.i64 (Int64.ofInt n.toInt) = .i64 n := by rw [Int64.ofInt_toInt]
  simp only [Value.fits, Bool.or_eq_true, beq_iff_eq] at h
  rcases h with (rfl | rfl) | rfl <;> exact except_map_eq_ok.2 ⟨n.toInt, hread, hself⟩

/-- An unsigned 64-bit integer is read by every kind that it fits. -/
theorem readScalar_u64 {kind : Scalar} {n : UInt64} (h : (Value.u64 n).fits kind = true) :
    readScalar kind (.string (Text.natural n.toNat)) = .ok (.u64 n) := by
  have hread := readInteger_natural (fitsWide_uint64 n)
  have hself : Value.u64 (Int.toNat n.toNat).toUInt64 = .u64 n := by
    rw [Int.toNat_natCast, Nat.toUInt64_eq, UInt64.ofNat_toNat]
  simp only [Value.fits, Bool.or_eq_true, beq_iff_eq] at h
  rcases h with rfl | rfl <;> exact except_map_eq_ok.2 ⟨n.toNat, hread, hself⟩

/-- What is written for a value of a scalar kind is read as the value. -/
theorem exists_json_of_fits {kind : Scalar} {v : Value} (h : v.fits kind = true)
    (hnan : v.isNaN = false) : ∃ json, writeValue v = .ok json ∧ readScalar kind json = .ok v := by
  cases v
  case message | list | map => cases h
  case i32 n =>
    exact ⟨_, rfl, readScalar_i32 h (readInteger_number (toInt?_ofInt32 n) (fitsWide_int32 n))⟩
  case u32 n =>
    have hnumber : (Json.Number.natural n.toUInt64).toInt? = some (n.toNat : Int) := by
      rw [Json.Number.toInt?, UInt32.toNat_toUInt64]
    exact ⟨_, rfl, readScalar_u32 h (readInteger_number hnumber (fitsWide_uint32 n))⟩
  case i64 n => exact ⟨_, rfl, readScalar_i64 h⟩
  case u64 n => exact ⟨_, rfl, readScalar_u64 h⟩
  all_goals simp only [Value.fits, beq_iff_eq, Bool.false_eq_true] at h
  all_goals subst h
  case bool b => exact ⟨_, rfl, rfl⟩
  case string s => exact ⟨_, rfl, rfl⟩
  case f64 word => exact ⟨_, rfl, except_map_eq_ok.2 ⟨word, readDouble_writeDouble hnan, rfl⟩⟩
  case f32 word =>
    have hread := readDouble_writeDouble (Number.isNaN_widen hnan)
    refine ⟨_, rfl, except_bind_eq_ok.2 ⟨_, hread, except_bind_eq_ok.2 ⟨word, ?_, rfl⟩⟩⟩
    exact singleOfDouble_widen hnan
  case bytes content =>
    refine ⟨_, rfl, except_map_eq_ok.2 ⟨content, ?_, rfl⟩⟩
    simp only [readBytes, Base64.decode_text]

/-! ## Enum numbers -/

/-- What is written for an enum number, or an integer that stands for one, is read as the number. -/
theorem exists_json_of_asEnum (type : EnumType) {v : Value} {n : Int32} (h : v.asEnum = .enum n) :
    ∃ json, writeValue v = .ok json ∧ readEnum type json = .ok n := by
  have hread : readEnum type (.number (.ofInt32 n)) = .ok n := by
    refine except_bind_eq_ok.2 ⟨_, readInteger_number (toInt?_ofInt32 n) (fitsWide_int32 n), ?_⟩
    rw [if_pos (fitsInt32_toInt n), Int32.ofInt_toInt]
  cases v <;> cases h <;> exact ⟨_, rfl, hread⟩

/-! ## Map keys -/

/-- A kind that keys fit may be the key of a map. -/
theorem isMapKey_of_fits {kind : Scalar} {k : MapKey} (h : k.toValue.fits kind = true) :
    kind.isMapKey = true := by
  cases kind <;> first | rfl | (cases k <;> cases h)

/-- A key that is neither a truth value nor a text is read as a scalar value. -/
theorem readKey_of_readScalar {kind : Scalar} {k : MapKey} (h : k.toValue.fits kind = true)
    (hbool : kind ≠ .bool) (hstring : kind ≠ .string)
    (hread : readScalar kind (.string k.text) = .ok k.toValue) : readKey kind k.text = .ok k := by
  unfold readKey
  split
  · exact absurd rfl hbool
  · exact absurd rfl hstring
  · rw [if_pos (isMapKey_of_fits h)]
    refine except_bind_eq_ok.2 ⟨_, hread, ?_⟩
    rw [MapKey.ofValue?_toValue]

/-- The text of a key is read as the key by every kind that it fits. -/
theorem readKey_text {kind : Scalar} {k : MapKey} (h : k.toValue.fits kind = true) :
    readKey kind k.text = .ok k := by
  cases k
  case bool b =>
    simp only [MapKey.toValue, Value.fits, beq_iff_eq] at h
    subst h
    cases b <;> rfl
  case string s =>
    simp only [MapKey.toValue, Value.fits, beq_iff_eq] at h
    subst h
    rfl
  case i32 n =>
    have hread := readScalar_i32 h (readInteger_integer (fitsWide_int32 n))
    exact readKey_of_readScalar h (by rintro rfl; cases h) (by rintro rfl; cases h) hread
  case u32 n =>
    have hread := readScalar_u32 h (readInteger_natural (fitsWide_uint32 n))
    exact readKey_of_readScalar h (by rintro rfl; cases h) (by rintro rfl; cases h) hread
  case i64 n =>
    have hread := readScalar_i64 h
    exact readKey_of_readScalar h (by rintro rfl; cases h) (by rintro rfl; cases h) hread
  case u64 n =>
    have hread := readScalar_u64 h
    exact readKey_of_readScalar h (by rintro rfl; cases h) (by rintro rfl; cases h) hread

end Plain

end DynProto
