import DynProto.Proofs.Plain.Conversion
import DynProto.Proofs.Text.Decimal

/-!
# Integers are read exactly or not at all

A JSON number stands for a rational number, and a string for the integer that it spells, if it
spells one (`Json.StandsFor`). A field of an integer kind takes a value exactly if it stands for an
integer of the kind, and holds this integer then; the same goes for the numbers of enum values.
That the integers of 64 bits may go through floating-point numbers does not show
(`Plain.wideOfNumber?_eq`), and those of 32 bits are cut out of them.
-/

namespace DynProto

open DynProto.Number (Format)

/-! ## What stands for an integer -/

namespace Json

/-- A number that is held as a floating-point number is held as a finite one. -/
def Number.Finite : Number → Prop
  | natural _ | negative _ => True
  | double word => Format.double.isFinite word.toNat = true

/-- The rational number that a number is. -/
def Number.value : Number → ℚ
  | natural n => n.toNat
  | negative n => n.toInt
  | double word => Format.double.value word.toNat

/-- A value that is a finite number, if it is a number. -/
def Finite : Json → Prop
  | number n => n.Finite
  | _ => True

/-- The integer that a value stands for: a number for its value, and a string for the integer that
is spelled between its blanks. -/
inductive StandsFor (signed : Bool) : Json → Int → Prop
  /-- A number has the integer for its value. -/
  | number {n : Number} {i : Int} (h : n.value = i) : StandsFor signed (.number n) i
  /-- A string spells the integer. -/
  | string {s : String} {i : Int} (h : Text.SpellsInteger signed (Text.trim s.toList) i) :
      StandsFor signed (.string s) i

/-- A finite number stands for an integer exactly if this is its value. -/
theorem Number.toInt?_eq_some_iff {n : Number} (h : n.Finite) (i : Int) :
    n.toInt? = some i ↔ n.value = i := by
  cases n with
  | natural n =>
    rw [toInt?, value, Option.some.injEq]
    exact_mod_cast Iff.rfl
  | negative n =>
    rw [toInt?, value, Option.some.injEq]
    exact_mod_cast Iff.rfl
  | double word => exact Format.integer?_eq_some_iff _ h i

end Json

/-- The integer that a value is, if it is an integer or the number of an enum value. -/
def Value.integer? : Value → Option Int
  | i32 n => some n.toInt
  | i64 n => some n.toInt
  | u32 n => some n.toNat
  | u64 n => some n.toNat
  | enum n => some n.toInt
  | _ => none

/-- The least and the greatest integer of a kind, if it is one of integers. -/
def Scalar.integerBounds? : Scalar → Option (Int × Int)
  | int32 | sint32 | sfixed32 => some (-2 ^ 31, 2 ^ 31 - 1)
  | uint32 | fixed32 => some (0, 2 ^ 32 - 1)
  | int64 | sint64 | sfixed64 => some (-2 ^ 63, 2 ^ 63 - 1)
  | uint64 | fixed64 => some (0, 2 ^ 64 - 1)
  | double | float | bool | string | bytes => none

namespace Plain

open Wire (except_bind_eq_ok)

/-! ## Integers of 64 bits -/

/-- An integer of 64 bits is read from a value exactly if the value stands for it. -/
theorem readInteger_eq_ok_iff {json : Json} (hjson : json.Finite) {signed : Bool} {i : Int} :
    readInteger signed json = .ok i ↔ json.StandsFor signed i ∧ fitsWide signed i = true := by
  cases json with
  | number n =>
    have hfound : n.toInt?.filter (fitsWide signed) = some i
        ↔ (Json.number n).StandsFor signed i ∧ fitsWide signed i = true := by
      rw [Option.filter_eq_some_iff, Json.Number.toInt?_eq_some_iff hjson]
      refine and_congr_left fun _ => ⟨.number, ?_⟩
      rintro ⟨h⟩
      assumption
    rw [readInteger, wideOfNumber?_eq, ← hfound]
    cases n.toInt?.filter (fitsWide signed) <;> simp
  | string s =>
    have hspelled : (if signed = true then Text.integer? (Text.trim s.toList)
        else (Text.unsigned? (Text.trim s.toList)).map Int.ofNat) = some i
        ↔ (Json.string s).StandsFor signed i := by
      refine Iff.trans ?_ ⟨.string, fun h => by cases h; assumption⟩
      cases signed
      · exact Text.unsigned?_eq_some_iff
      · exact Text.integer?_eq_some_iff
    rw [readInteger, ← hspelled, ← Option.filter_eq_some_iff]
    generalize (if signed = true then Text.integer? (Text.trim s.toList)
      else (Text.unsigned? (Text.trim s.toList)).map Int.ofNat).filter (fitsWide signed) = found
    cases found <;> simp
  | null | bool | array | object =>
    refine iff_of_false (fun h => by cases h) ?_
    rintro ⟨h, _⟩
    cases h

/-- An integer that is read fits 64 bits. -/
theorem fitsWide_of_readInteger {signed : Bool} {json : Json} {i : Int}
    (h : readInteger signed json = .ok i) : fitsWide signed i = true := by
  cases json with
  | number n =>
    rw [readInteger, wideOfNumber?_eq] at h
    split at h
    · rename_i hfound
      cases h
      exact (Option.filter_eq_some_iff.1 hfound).2
    · cases h
  | string s =>
    rw [readInteger] at h
    split at h
    · rename_i hfound
      cases h
      exact (Option.filter_eq_some_iff.1 hfound).2
    · cases h
  | null | bool | array | object => cases h

/-! ## Integers of every kind -/

/-- An integer of 64 bits is cut to a signed one of 32 bits exactly if it is one. -/
theorem cut_readInteger_eq_ok_iff {json : Json} {failure : Int → PlainReason} {n : Int32} :
    (readInteger true json >>= fun i =>
      if fitsInt32 i then .ok (Int32.ofInt i) else .error (failure i)) = Except.ok n
      ↔ readInteger true json = .ok n.toInt := by
  rw [except_bind_eq_ok]
  constructor
  · rintro ⟨i, hi, h⟩
    split at h
    · rename_i hfits
      cases h
      simp only [fitsInt32, Bool.and_eq_true, decide_eq_true_eq] at hfits
      rw [hi, Int32.toInt_ofInt_of_le hfits.1 (Int.lt_add_one_of_le hfits.2)]
    · cases h
  · intro h
    refine ⟨n.toInt, h, ?_⟩
    rw [if_pos (fitsInt32_toInt n), Int32.ofInt_toInt]

/-- An unsigned 32-bit integer is read exactly if it is read as one of 64 bits. -/
theorem readUInt32_eq_ok_iff {kind : Scalar} {json : Json} {n : UInt32} :
    readUInt32 kind json = .ok n ↔ readInteger false json = .ok n.toNat := by
  refine ⟨fun h => ?_, readUInt32_of_readInteger kind⟩
  obtain ⟨i, hi, h⟩ := except_bind_eq_ok.1 h
  split at h
  · rename_i hlt
    cases h
    have hpos : 0 ≤ i := (fitsWide_iff.1 (fitsWide_of_readInteger hi)).1
    have hsize : (UInt32.size : Int) = 2 ^ 32 := rfl
    rw [hi, Nat.toUInt32_eq, UInt32.toNat_ofNat', Nat.mod_eq_of_lt (by omega),
      Int.toNat_of_nonneg hpos]
  · cases h

/-- A signed 64-bit integer is read as it is. -/
theorem exists_readInteger_ofInt_iff {json : Json} {n : Int64} :
    (∃ i, readInteger true json = .ok i ∧ Int64.ofInt i = n)
      ↔ readInteger true json = .ok n.toInt := by
  refine ⟨?_, fun h => ⟨n.toInt, h, Int64.ofInt_toInt n⟩⟩
  rintro ⟨i, hi, rfl⟩
  obtain ⟨hleast, hgreatest⟩ := fitsWide_iff.1 (fitsWide_of_readInteger hi)
  rw [hi, Int64.toInt_ofInt_of_le hleast (Int.lt_add_one_of_le hgreatest)]

/-- An unsigned 64-bit integer is read as it is. -/
theorem exists_readInteger_toUInt64_iff {json : Json} {n : UInt64} :
    (∃ i, readInteger false json = .ok i ∧ i.toNat.toUInt64 = n)
      ↔ readInteger false json = .ok n.toNat := by
  constructor
  · rintro ⟨i, hi, rfl⟩
    obtain ⟨hleast, hgreatest⟩ := fitsWide_iff.1 (fitsWide_of_readInteger hi)
    have hpos : 0 ≤ i := hleast
    have hlt : i ≤ 2 ^ 64 - 1 := hgreatest
    rw [hi, Nat.toUInt64_eq, UInt64.toNat_ofNat', Nat.mod_eq_of_lt (by omega),
      Int.toNat_of_nonneg hpos]
  · intro h
    refine ⟨n.toNat, h, ?_⟩
    rw [Int.toNat_natCast, Nat.toUInt64_eq, UInt64.ofNat_toNat]

/-- A value of an integer kind is read exactly if its integer is read. -/
theorem readScalar_eq_ok_iff {kind : Scalar} {least greatest : Int}
    (hkind : kind.integerBounds? = some (least, greatest)) {json : Json} {v : Value} :
    readScalar kind json = .ok v ↔ v.fits kind = true ∧
      ∃ i, v.integer? = some i ∧ readInteger (decide (least < 0)) json = .ok i := by
  cases kind <;> cases hkind
  case int32 | sint32 | sfixed32 =>
    simp only [readScalar, readInt32, except_map_eq_ok, cut_readInteger_eq_ok_iff]
    cases v <;> simp [Value.fits, Value.integer?]
  case uint32 | fixed32 =>
    simp only [readScalar, except_map_eq_ok, readUInt32_eq_ok_iff]
    cases v <;> simp [Value.fits, Value.integer?]
  case int64 | sint64 | sfixed64 =>
    simp only [readScalar, except_map_eq_ok]
    cases v <;> simp [Value.fits, Value.integer?, exists_readInteger_ofInt_iff]
  case uint64 | fixed64 =>
    simp only [readScalar, except_map_eq_ok]
    cases v <;> simp [Value.fits, Value.integer?, exists_readInteger_toUInt64_iff]

/-- The integers of the values of a kind are those between its bounds. -/
theorem exists_fits_iff {kind : Scalar} {least greatest : Int}
    (hkind : kind.integerBounds? = some (least, greatest)) (i : Int) :
    (∃ v : Value, v.fits kind = true ∧ v.integer? = some i) ↔ least ≤ i ∧ i ≤ greatest := by
  constructor
  · rintro ⟨v, hfits, hi⟩
    cases kind <;> cases hkind
    case int32.refl | sint32.refl | sfixed32.refl =>
      cases v with
      | i32 n =>
        cases hi
        exact ⟨n.le_toInt, Int.le_of_lt_add_one n.toInt_lt⟩
      | _ => cases hfits
    case int64.refl | sint64.refl | sfixed64.refl =>
      cases v with
      | i64 n =>
        cases hi
        exact ⟨n.le_toInt, Int.le_of_lt_add_one n.toInt_lt⟩
      | _ => cases hfits
    case uint32.refl | fixed32.refl =>
      cases v with
      | u32 n =>
        cases hi
        have := n.toNat_lt
        omega
      | _ => cases hfits
    case uint64.refl | fixed64.refl =>
      cases v with
      | u64 n =>
        cases hi
        have := n.toNat_lt
        omega
      | _ => cases hfits
  · rintro ⟨hleast, hgreatest⟩
    cases kind <;> cases hkind
    case int32.refl | sint32.refl | sfixed32.refl =>
      exact ⟨.i32 (.ofInt i), rfl, congrArg some
        (Int32.toInt_ofInt_of_le hleast (Int.lt_add_one_of_le hgreatest))⟩
    case int64.refl | sint64.refl | sfixed64.refl =>
      exact ⟨.i64 (.ofInt i), rfl, congrArg some
        (Int64.toInt_ofInt_of_le hleast (Int.lt_add_one_of_le hgreatest))⟩
    case uint32.refl | fixed32.refl =>
      refine ⟨.u32 (.ofNat i.toNat), rfl, congrArg some ?_⟩
      rw [UInt32.toNat_ofNat', Nat.mod_eq_of_lt (by omega), Int.toNat_of_nonneg hleast]
    case uint64.refl | fixed64.refl =>
      refine ⟨.u64 (.ofNat i.toNat), rfl, congrArg some ?_⟩
      rw [UInt64.toNat_ofNat', Nat.mod_eq_of_lt (by omega), Int.toNat_of_nonneg hleast]

/-- An integer between the bounds of a kind fits the 64 bits that it goes through. -/
theorem fitsWide_of_integerBounds {kind : Scalar} {least greatest i : Int}
    (hkind : kind.integerBounds? = some (least, greatest)) (hleast : least ≤ i)
    (hgreatest : i ≤ greatest) : fitsWide (decide (least < 0)) i = true := by
  have hwide : leastWide (decide (least < 0)) ≤ least
      ∧ greatest ≤ greatestWide (decide (least < 0)) := by
    cases kind <;> cases hkind <;> decide
  exact fitsWide_iff.2 ⟨hwide.1.trans hleast, hgreatest.trans hwide.2⟩

/-- A value of an integer kind is read exactly from what stands for its integer. -/
theorem readScalar_eq_ok_iff_standsFor {kind : Scalar} {least greatest : Int}
    (hkind : kind.integerBounds? = some (least, greatest)) {json : Json} (hjson : json.Finite)
    {v : Value} : readScalar kind json = .ok v ↔ v.fits kind = true ∧
      ∃ i, v.integer? = some i ∧ json.StandsFor (decide (least < 0)) i := by
  rw [readScalar_eq_ok_iff hkind]
  refine and_congr_right fun hfits => exists_congr fun i => and_congr_right fun hi => ?_
  obtain ⟨hleast, hgreatest⟩ := (exists_fits_iff hkind i).1 ⟨v, hfits, hi⟩
  rw [readInteger_eq_ok_iff hjson]
  exact and_iff_left (fitsWide_of_integerBounds hkind hleast hgreatest)

/-- The number of an enum value is read exactly from a number that is this integer. -/
theorem readEnum_number_eq_ok_iff (type : EnumType) {number : Json.Number}
    (hnumber : number.Finite) {n : Int32} :
    readEnum type (.number number) = .ok n ↔ number.value = n.toInt := by
  have hjson : (Json.number number).Finite := hnumber
  rw [readEnum, cut_readInteger_eq_ok_iff, readInteger_eq_ok_iff hjson,
    and_iff_left (fitsWide_int32 n)]
  exact ⟨fun h => by cases h; assumption, .number⟩

/-- A kind of integers takes a value exactly if this stands for an integer between the bounds of the
kind, and then holds the integer. So does an enum take a number, with the bounds of 32 bits. -/
theorem readScalar_integer {kind : Scalar} {least greatest : Int}
    (hkind : kind.integerBounds? = some (least, greatest)) {json : Json} (hjson : json.Finite)
    (type : EnumType) {number : Json.Number} (hnumber : number.Finite) :
    ((∃ v, readScalar kind json = .ok v)
        ↔ ∃ i, json.StandsFor (decide (least < 0)) i ∧ least ≤ i ∧ i ≤ greatest)
      ∧ (∀ v, readScalar kind json = .ok v → v.fits kind = true
        ∧ ∃ i, v.integer? = some i ∧ json.StandsFor (decide (least < 0)) i)
      ∧ ((∃ n, readEnum type (.number number) = .ok n)
        ↔ ∃ i : Int, number.value = i ∧ -2 ^ 31 ≤ i ∧ i ≤ 2 ^ 31 - 1)
      ∧ ∀ n, readEnum type (.number number) = .ok n → number.value = n.toInt := by
  refine ⟨⟨?_, ?_⟩, ?_, ⟨?_, ?_⟩, ?_⟩
  · rintro ⟨v, hv⟩
    obtain ⟨hfits, i, hi, hstands⟩ := (readScalar_eq_ok_iff_standsFor hkind hjson).1 hv
    exact ⟨i, hstands, (exists_fits_iff hkind i).1 ⟨v, hfits, hi⟩⟩
  · rintro ⟨i, hstands, hbounds⟩
    obtain ⟨v, hfits, hi⟩ := (exists_fits_iff hkind i).2 hbounds
    exact ⟨v, (readScalar_eq_ok_iff_standsFor hkind hjson).2 ⟨hfits, i, hi, hstands⟩⟩
  · intro v hv
    exact (readScalar_eq_ok_iff_standsFor hkind hjson).1 hv
  · rintro ⟨n, hn⟩
    exact ⟨n.toInt, (readEnum_number_eq_ok_iff type hnumber).1 hn, n.le_toInt,
      Int.le_of_lt_add_one n.toInt_lt⟩
  · rintro ⟨i, hi, hleast, hgreatest⟩
    refine ⟨.ofInt i, (readEnum_number_eq_ok_iff type hnumber).2 ?_⟩
    rw [hi, Int32.toInt_ofInt_of_le hleast (Int.lt_add_one_of_le hgreatest)]
  · intro n hn
    exact (readEnum_number_eq_ok_iff type hnumber).1 hn

/-- The floating-point number -2⁶³ is read as the least integer of 64 bits, and -2³¹ as the number
of an enum value. -/
theorem readScalar_integer_least :
    Scalar.int64.integerBounds? = some (-2 ^ 63, 2 ^ 63 - 1)
      ∧ (Json.number (.double 0xC3E0000000000000)).Finite
      ∧ (Json.Number.negative (-2147483648)).Finite
      ∧ (∃ v, readScalar .int64 (.number (.double 0xC3E0000000000000)) = .ok v
        ∧ v.integer? = some (-2 ^ 63))
      ∧ ∃ n, readEnum ⟨"Color", []⟩ (.number (.negative (-2147483648))) = .ok n := by
  have hkind : Scalar.int64.integerBounds? = some (-2 ^ 63, 2 ^ 63 - 1) := rfl
  have hfinite : (Json.Number.double 0xC3E0000000000000).Finite := by
    show Format.double.isFinite _ = true
    decide
  have hjson : (Json.number (.double 0xC3E0000000000000)).Finite := hfinite
  have hnumber : (Json.Number.negative (-2147483648)).Finite := trivial
  have hvalue : (Json.Number.double 0xC3E0000000000000).value = (-2 ^ 63 : Int) :=
    (Json.Number.toInt?_eq_some_iff hfinite _).1 (by decide +kernel)
  obtain ⟨⟨-, hread⟩, hexact, ⟨-, henum⟩, -⟩ :=
    readScalar_integer hkind hjson ⟨"Color", []⟩ hnumber
  obtain ⟨v, hv⟩ := hread ⟨-2 ^ 63, .number hvalue, by decide⟩
  obtain ⟨-, i, hi, hstands⟩ := hexact v hv
  have hsame : i = -2 ^ 63 := by
    obtain ⟨h⟩ := hstands
    exact Int.cast_injective (h.symm.trans hvalue)
  exact ⟨hkind, hjson, hnumber, ⟨v, hv, hsame ▸ hi⟩, henum ⟨-2147483648, rfl, by decide⟩⟩

end Plain

end DynProto
