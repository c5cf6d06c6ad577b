import DynProto.Proofs.Wire.Reading
import DynProto.Wire.Content

/-!
# Scalar values read back

The reader of a scalar kind undoes its writer (`reads_content`): every value that fits the kind
comes back bit by bit, also a not-a-number with a payload or a negative zero. In the other direction
the reader of a kind gives values that fit the kind, whatever the octets are (`gives_fits`).
-/

namespace DynProto.Scalar

open Wire

/-! ## What is written is read back -/

/-- Widening an integer to 64 bits and cutting it back to 32 changes nothing. -/
theorem cut_widened (n : Int32) : n.toInt64.toUInt64.toUInt32.toInt32 = n := by
  have hcut : (n.toBitVec.signExtend 64).signExtend 32 = (n.toBitVec.signExtend 64).setWidth 32 :=
    BitVec.signExtend_eq_setWidth_of_le _ (by decide)
  have hback := congrArg Int32.toBitVec (Int32.toInt32_toInt64 n)
  apply Int32.toBitVec_inj.1
  exact hcut.symm.trans hback

/-- An integer written as a varint of 64 bits comes back from its low 32 bits. -/
theorem reads_int32 (n : Int32) : int32Reader.Reads (int32Content n) n :=
  (reads_varint n.toInt64.toUInt64.toNat_lt).map (by simp [cut_widened])

/-- The natural number for a signed one of `k + 1` bits has `k + 1` bits. -/
theorem zigzag_lt {k : Nat} {n : Int} (hlo : -2 ^ k ≤ n) (hhi : n < 2 ^ k) :
    zigzag n < 2 ^ (k + 1) := by
  have hpow : (2 : Int) ^ k = ((2 ^ k : Nat) : Int) := by simp
  rw [hpow] at hlo hhi
  rw [Nat.pow_succ]
  unfold zigzag
  split <;> omega

/-- A value is read back from its octets. -/
theorem reads_content {kind : Scalar} {v : Value} {content : Bytes}
    (h : kind.content? v = some content) (hlength : content.length < lengthBound) :
    kind.reader.Reads content v := by
  cases kind <;> cases v <;> simp only [content?, Option.some.injEq, reduceCtorEq] at h <;> subst h
  case double.f64 word => exact (reads_fixed 7 word.toNat_lt).map (by simp)
  case float.f32 word => exact (reads_fixed 3 word.toNat_lt).map (by simp)
  case int64.i64 n => exact (reads_varint n.toUInt64.toNat_lt).map (by simp)
  case uint64.u64 n => exact (reads_varint n.toNat_lt).map (by simp)
  case int32.i32 n => exact (reads_int32 n).map rfl
  case fixed64.u64 n => exact (reads_fixed 7 n.toNat_lt).map (by simp)
  case fixed32.u32 n => exact (reads_fixed 3 n.toNat_lt).map (by simp)
  case bool.bool b =>
    have hlt : (if b then 1 else 0) < lengthBound := by cases b <;> decide
    exact (reads_varint hlt).map (by cases b <;> rfl)
  case string.string s =>
    have hlt := Nat.lt_of_le_of_lt (length_le_length_delimited _) hlength
    exact (reads_text hlt).map rfl
  case bytes.bytes block =>
    have hlt := Nat.lt_of_le_of_lt (length_le_length_delimited _) hlength
    exact (reads_block _ hlt).map rfl
  case uint32.u32 n =>
    have hlt : n.toNat < lengthBound := Nat.lt_trans n.toNat_lt (by decide)
    exact (reads_varint hlt).map (by simp)
  case sfixed32.i32 n => exact (reads_fixed 3 n.toUInt32.toNat_lt).map (by simp)
  case sfixed64.i64 n => exact (reads_fixed 7 n.toUInt64.toNat_lt).map (by simp)
  case sint32.i32 n =>
    have hsize : zigzag n.toInt < UInt32.size := zigzag_lt (k := 31) n.le_toInt n.toInt_lt
    have hlt : zigzag n.toInt < lengthBound := Nat.lt_trans hsize (by decide)
    refine (reads_varint hlt).map ?_
    rw [Nat.mod_eq_of_lt hsize, unzigzag_zigzag, Int32.ofInt_toInt]
  case sint64.i64 n =>
    have hlt : zigzag n.toInt < lengthBound := zigzag_lt (k := 63) n.le_toInt n.toInt_lt
    refine (reads_varint hlt).map ?_
    rw [unzigzag_zigzag, Int64.ofInt_toInt]

/-! ## What is read fits -/

/-- The reader of a kind gives values that fit the kind. -/
theorem gives_fits (kind : Scalar) : kind.reader.Gives fun v => v.fits kind = true := by
  cases kind <;> exact (Reader.gives_true _).map fun _ _ => rfl

end DynProto.Scalar
