import DynProto.Proofs.Json.Literal
import DynProto.Proofs.Number.Decimal
import DynProto.Proofs.Plain.Integer
import DynProto.Proofs.Plain.Renaming

/-!
# Integer literals as field values

Literals of 64 bits, with or without a sign, are held as they are. The others are rounded to
floating-point numbers, by which a literal up to 1024 below the least integer of 64 bits becomes
this one (`exists_number?_of_below`), whereas no other one becomes an integer of 64 bits
(`value_of_number?`). So a kind of integers keeps from a literal its integer or nothing, but for
those 1024 literals (`keptInteger?`, `readScalar_literal`).

This is what is stored of a literal in the text of an object, whatever else stands in the text: a
member for a field that no other member is for adds the value of the field to the record that the
text is read as without it (`readsAs_middle`).
-/

namespace DynProto

open DynProto.Number (Format)

/-! ## Rounding beyond 64 bits -/

namespace Number.Format

/-- The magnitude of 2⁶³ among those of 64 bits. -/
def wide : Nat := 0x43E0000000000000

/-- It has this value. -/
theorem units_wide : double.units wide = 2 ^ 63 * 2 ^ double.scale := by
  decide +kernel

/-- Numbers a little greater than 2⁶³ are rounded down to it. -/
theorem wide_lt_decimal_iff (n : Nat) : wide < double.decimal n 0 ↔ 2 ^ 63 + 1024 < n := by
  have hk : double.units wide + double.units (wide + 1)
      = 2 * (2 ^ 63 + 1024) * 2 ^ double.scale := by decide +kernel
  rw [double.lt_decimal_zero_iff withinOrders_double (by decide) hk]
  exact or_iff_left fun h => absurd h.2 (by decide)

/-- Numbers from 2⁶³ on are not rounded below it. -/
theorem wide_le_decimal {n : Nat} (h : 2 ^ 63 ≤ n) : wide ≤ double.decimal n 0 := by
  have hk : double.units (wide - 1) + double.units (wide - 1 + 1)
      = 2 * (2 ^ 63 - 512) * 2 ^ double.scale := by decide +kernel
  have hlt := (double.lt_decimal_zero_iff withinOrders_double (by decide) hk n).2 (.inl (by omega))
  exact Nat.le_of_pred_lt hlt

/-- Numbers from 2⁶⁴ on are not rounded below it. -/
theorem units_decimal_ge {n : Nat} (h : 2 ^ 64 ≤ n) :
    2 ^ 64 * 2 ^ double.scale ≤ double.units (double.decimal n 0) := by
  have hk : double.units 0x43EFFFFFFFFFFFFF + double.units (0x43EFFFFFFFFFFFFF + 1)
      = 2 * (2 ^ 64 - 1024) * 2 ^ double.scale := by decide +kernel
  have hlt := (double.lt_decimal_zero_iff withinOrders_double (by decide) hk n).2 (.inl (by omega))
  have hunits := double.units_le_units (Nat.succ_le_of_lt hlt)
  have hleast : double.units (Nat.succ 0x43EFFFFFFFFFFFFF) = 2 ^ 64 * 2 ^ double.scale := by
    decide +kernel
  rwa [hleast] at hunits

end Number.Format

namespace Json

/-! ## The numbers that are held for literals -/

/-- A number that is held for a magnitude is finite and has the value of the magnitude. -/
theorem value_of_finite? {negative : Bool} {m : Nat} {number : Number}
    (h : finite? negative m = some number) : number.Finite ∧
      number.value = if negative then -(Format.double.units m / 2 ^ Format.double.scale : ℚ)
        else Format.double.units m / 2 ^ Format.double.scale := by
  unfold finite? at h
  split at h
  · rename_i hfinite
    cases h
    have hlt := Nat.lt_trans hfinite Format.double.infinity_lt_signBit
    constructor
    · rw [Number.Finite, Format.toNat_signed_double negative hlt, Format.isFinite,
        Format.magnitude_signed _ _ hlt]
      exact decide_eq_true hfinite
    · rw [Number.value, Format.toNat_signed_double negative hlt, Format.value_signed _ _ hlt]
  · cases h

/-- A natural number of 64 bits is held as it is. -/
theorem integerLiteral?_natural {n : Nat} (h : n < 2 ^ 64) :
    integerLiteral? false n = some (.natural n.toUInt64) := by
  have hsize : n < UInt64.size := h
  simp [integerLiteral?, hsize]

/-- A negative integer of 64 bits is held as it is. -/
theorem integerLiteral?_negative {n : Nat} (hpos : 0 < n) (h : n ≤ 2 ^ 63) :
    integerLiteral? true n = some (.negative (Int64.ofInt (-(n : Int)))) := by
  have hleast : Int64.minValue.toInt ≤ -(n : Int) := by
    rw [show Int64.minValue.toInt = -2 ^ 63 from rfl]
    omega
  have hholds : (true && decide (0 < n) && decide (Int64.minValue.toInt ≤ -(n : Int))) = true := by
    simp only [hpos, hleast, decide_true, Bool.true_and]
  rw [integerLiteral?, if_neg (by simp), if_pos hholds]

/-- A greater natural number is rounded. -/
theorem integerLiteral?_beyond {n : Nat} (h : 2 ^ 64 ≤ n) :
    integerLiteral? false n = finite? false (Format.double.decimal n 0) := by
  have hsize : ¬ n < UInt64.size := Nat.not_lt.2 h
  simp [integerLiteral?, hsize]

/-- A lesser negative integer is rounded, and so is minus zero. -/
theorem integerLiteral?_below {n : Nat} (h : n = 0 ∨ 2 ^ 63 < n) :
    integerLiteral? true n = finite? true (Format.double.decimal n 0) := by
  have hnot : ¬ (true && decide (0 < n) && decide (Int64.minValue.toInt ≤ -(n : Int))) = true := by
    rw [Bool.true_and, Bool.and_eq_true, decide_eq_true_eq, decide_eq_true_eq,
      show Int64.minValue.toInt = -2 ^ 63 from rfl]
    omega
  rw [integerLiteral?, if_neg (by simp), if_neg hnot]

namespace Literal

variable {literal : Literal}

/-- The number of a literal is finite. -/
theorem finite_of_number? {number : Number} (h : literal.number? = some number) :
    number.Finite := by
  unfold number? integerLiteral? at h
  split_ifs at h
  · cases h
    trivial
  · cases h
    trivial
  · exact (value_of_finite? h).1

/-- A literal of 64 bits, with or without a sign, has the number that it spells. -/
theorem exists_number?_of_fits (hleast : -2 ^ 63 ≤ literal.toInt)
    (hgreatest : literal.toInt < 2 ^ 64) :
    ∃ number, literal.number? = some number ∧ number.value = literal.toInt := by
  unfold toInt at hleast hgreatest ⊢
  unfold number?
  generalize Text.digitsValue literal.digits = n at *
  generalize literal.negative = negative at *
  cases negative
  · simp only [Bool.false_eq_true, if_false] at hleast hgreatest ⊢
    have hlt : n < 2 ^ 64 := by exact_mod_cast hgreatest
    refine ⟨_, integerLiteral?_natural hlt, ?_⟩
    rw [Number.value, Nat.toUInt64_eq, UInt64.toNat_ofNat', Nat.mod_eq_of_lt hlt, Int.cast_natCast]
  · simp only [if_true] at hleast hgreatest ⊢
    rcases Nat.eq_zero_or_pos n with rfl | hpos
    · have hzero : finite? true (Format.double.decimal 0 0)
          = some (.double 0x8000000000000000) := by decide
      refine ⟨_, (integerLiteral?_below (.inl rfl)).trans hzero, ?_⟩
      rw [(value_of_finite? hzero).2]
      simp [Format.decimal, Format.units]
    · refine ⟨_, integerLiteral?_negative hpos (by omega), ?_⟩
      rw [Number.value, Int64.toInt_ofInt_of_le (by omega) (by omega)]

/-- A literal up to 1024 below the least integer of 64 bits has this one's number. -/
theorem exists_number?_of_below (hleast : -2 ^ 63 - 1024 ≤ literal.toInt)
    (hbelow : literal.toInt < -2 ^ 63) :
    ∃ number, literal.number? = some number ∧ number.value = (-2 ^ 63 : Int) := by
  unfold toInt at hleast hbelow
  unfold number?
  generalize Text.digitsValue literal.digits = n at *
  generalize literal.negative = negative at *
  cases negative
  · simp only [Bool.false_eq_true, if_false] at hbelow
    omega
  · simp only [if_true] at hleast hbelow
    have hround : Format.double.decimal n 0 = Format.wide := by
      refine Nat.le_antisymm (Nat.le_of_not_lt ?_) (Format.wide_le_decimal (by omega))
      rw [Format.wide_lt_decimal_iff]
      omega
    have hheld : finite? true (Format.double.decimal n 0) = some (.double 0xC3E0000000000000) := by
      rw [hround]
      decide
    have hscale : (2 : ℚ) ^ Format.double.scale ≠ 0 := by positivity
    refine ⟨_, (integerLiteral?_below (.inr (by omega))).trans hheld, ?_⟩
    rw [(value_of_finite? hheld).2, if_pos rfl, hround, Format.units_wide, Nat.cast_mul,
      Nat.cast_pow 2 Format.double.scale, Nat.cast_ofNat, mul_div_cancel_right₀ _ hscale]
    norm_num

/-- Any other literal has a number that no integer of 64 bits is, if it has one. -/
theorem value_of_number? {number : Number} (h : literal.number? = some number)
    (hbeyond : literal.toInt < -2 ^ 63 - 1024 ∨ 2 ^ 64 ≤ literal.toInt) :
    number.value < -2 ^ 63 ∨ 2 ^ 64 ≤ number.value := by
  have hscale : (0 : ℚ) < 2 ^ Format.double.scale := by positivity
  unfold toInt at hbeyond
  unfold number? at h
  generalize Text.digitsValue literal.digits = n at *
  generalize literal.negative = negative at *
  cases negative
  · simp only [Bool.false_eq_true, if_false] at hbeyond
    have hn : 2 ^ 64 ≤ n := by omega
    rw [integerLiteral?_beyond hn] at h
    right
    rw [(value_of_finite? h).2, if_neg (by decide), le_div_iff₀ hscale]
    exact_mod_cast Format.units_decimal_ge hn
  · simp only [if_true] at hbeyond
    have hn : 2 ^ 63 + 1024 < n := by omega
    rw [integerLiteral?_below (.inr (by omega))] at h
    left
    have hunits := Format.double.units_lt_units ((Format.wide_lt_decimal_iff n).2 hn)
    rw [Format.units_wide] at hunits
    rw [(value_of_finite? h).2, if_pos rfl, neg_lt_neg_iff, lt_div_iff₀ hscale]
    exact_mod_cast hunits

end Literal

end Json

namespace Plain

open Wire (except_bind_eq_ok)

/-! ## What is kept of a literal -/

/-- What a kind with the given bounds keeps of the integer of a literal: the integer itself, if it
lies between the bounds; the least integer of 64 bits for the 1024 integers below it, if this is the
lower bound; and nothing otherwise. -/
def keptInteger? (least greatest i : Int) : Option Int :=
  if least ≤ i ∧ i ≤ greatest then some i
  else if least = -2 ^ 63 ∧ -2 ^ 63 - 1024 ≤ i ∧ i < -2 ^ 63 then some (-2 ^ 63)
  else none

/-- The bounds of a kind lie among the integers of 64 bits, with or without a sign. -/
theorem integerBounds_within {kind : Scalar} {least greatest : Int}
    (hkind : kind.integerBounds? = some (least, greatest)) :
    -2 ^ 63 ≤ least ∧ greatest < 2 ^ 64 := by
  cases kind <;> cases hkind <;> decide

/-- The number of a literal is an integer of a kind exactly if the kind keeps this integer. -/
theorem value_number?_iff {kind : Scalar} {least greatest : Int}
    (hkind : kind.integerBounds? = some (least, greatest)) (literal : Json.Literal) {i : Int}
    (hleast : least ≤ i) (hgreatest : i ≤ greatest) :
    (∃ number, literal.number? = some number ∧ number.value = i) ↔
      keptInteger? least greatest literal.toInt = some i := by
  obtain ⟨hwide, hnatural⟩ := integerBounds_within hkind
  have hunique : ∀ {number : Json.Number} {n : Int}, literal.number? = some number →
      number.value = n →
      ((∃ number, literal.number? = some number ∧ number.value = i) ↔ n = i) := by
    intro number n hnumber hvalue
    constructor
    · rintro ⟨number', hnumber', hvalue'⟩
      rw [hnumber] at hnumber'
      cases hnumber'
      exact Int.cast_injective (hvalue.symm.trans hvalue')
    · rintro rfl
      exact ⟨number, hnumber, hvalue⟩
  unfold keptInteger?
  by_cases hfits : -2 ^ 63 ≤ literal.toInt ∧ literal.toInt < 2 ^ 64
  · obtain ⟨number, hnumber, hvalue⟩ := Json.Literal.exists_number?_of_fits hfits.1 hfits.2
    rw [hunique hnumber hvalue]
    split_ifs <;> simp <;> omega
  by_cases hbelow : -2 ^ 63 - 1024 ≤ literal.toInt ∧ literal.toInt < -2 ^ 63
  · obtain ⟨number, hnumber, hvalue⟩ := Json.Literal.exists_number?_of_below hbelow.1 hbelow.2
    rw [hunique hnumber hvalue]
    split_ifs <;> simp <;> omega
  · have hbeyond : literal.toInt < -2 ^ 63 - 1024 ∨ 2 ^ 64 ≤ literal.toInt := by omega
    rw [if_neg (by omega), if_neg (by omega)]
    refine iff_of_false ?_ nofun
    rintro ⟨number, hnumber, hvalue⟩
    have hi : -2 ^ 63 ≤ (i : ℚ) ∧ (i : ℚ) < 2 ^ 64 := by
      exact_mod_cast And.intro (hwide.trans hleast) (hgreatest.trans_lt hnatural)
    rcases Json.Literal.value_of_number? hnumber hbeyond with h | h
    · rw [hvalue] at h
      exact hi.1.not_gt h
    · rw [hvalue] at h
      exact hi.2.not_ge h

/-- A kind of integers reads from the number of a literal the integer that it keeps. -/
theorem readScalar_literal {kind : Scalar} {least greatest : Int}
    (hkind : kind.integerBounds? = some (least, greatest)) (literal : Json.Literal) (v : Value) :
    (∃ number, literal.number? = some number ∧ readScalar kind (.number number) = .ok v) ↔
      v.fits kind = true ∧
        ∃ i, v.integer? = some i ∧ keptInteger? least greatest literal.toInt = some i := by
  have hread : ∀ {number}, literal.number? = some number →
      (readScalar kind (.number number) = .ok v ↔ v.fits kind = true ∧
        ∃ i, v.integer? = some i ∧ number.value = i) := by
    intro number hnumber
    have hjson : (Json.number number).Finite := literal.finite_of_number? hnumber
    rw [readScalar_eq_ok_iff_standsFor hkind hjson]
    refine and_congr_right fun _ => exists_congr fun i => and_congr_right fun _ => ?_
    exact ⟨fun h => by cases h; assumption, .number⟩
  constructor
  · rintro ⟨number, hnumber, h⟩
    obtain ⟨hfits, i, hi, hvalue⟩ := (hread hnumber).1 h
    obtain ⟨hleast, hgreatest⟩ := (exists_fits_iff hkind i).1 ⟨v, hfits, hi⟩
    exact ⟨hfits, i, hi, (value_number?_iff hkind literal hleast hgreatest).1
      ⟨number, hnumber, hvalue⟩⟩
  · rintro ⟨hfits, i, hi, hkept⟩
    obtain ⟨hleast, hgreatest⟩ := (exists_fits_iff hkind i).1 ⟨v, hfits, hi⟩
    obtain ⟨number, hnumber, hvalue⟩ :=
      (value_number?_iff hkind literal hleast hgreatest).2 hkept
    exact ⟨number, hnumber, (hread hnumber).2 ⟨hfits, i, hi, hvalue⟩⟩

/-! ## Members of an object text -/

section Members

variable {registry : Registry} {unknown : UnknownKeys} {type : MessageType} {index : Nat}
  {field : Field} {key : String}

/-- A member for a field puts the value of the field into the slot of the field. -/
theorem readPair_eq_ok_iff {nested : Nested} (hkey : type.indexOf? key = some index)
    (hfield : type.fields[index]? = some field) {json : Json} (hnull : json ≠ .null)
    {base record : Record} :
    readPair nested registry unknown type base (key, json) = .ok record ↔
      ∃ v, readField nested registry type.name field json = .ok v ∧
        base.set index (some v) = record := by
  rw [readPair, (readMember_of_indexOf? hkey hfield base).2 json hnull, except_map_eq_ok]

/-- An object is read member by member. -/
theorem readObject_object (nested : Nested) (members : List (String × Json)) :
    readObject nested registry unknown type (.object members)
      = members.foldlM (readPair nested registry unknown type) type.defaultRecord :=
  rfl

/-- A member for a field that no other member is for may be read last. -/
theorem readObject_middle {nested : Nested} (hkey : type.indexOf? key = some index)
    {json : Json} {before after : List (String × Json)}
    (hother : ∀ member ∈ before ++ after, type.indexOf? member.1 ≠ some index) {record : Record} :
    readObject nested registry unknown type (Json.object (before ++ (key, json) :: after)).canonical
        = .ok record ↔
      (readObject nested registry unknown type (Json.object (before ++ after)).canonical >>=
        fun base => readPair nested registry unknown type base (key, json.canonical))
          = .ok record := by
  have hcanonical : ∀ members : List (String × Json), (Json.object members).canonical
      = .object (OrderedMap.ofList (members.map fun member => (member.1, member.2.canonical))) := by
    intro members
    rw [Json.canonical, Json.canonicalMembers_eq_map]
  have hindex : ∀ binding ∈ (before ++ after).map fun member => (member.1, member.2.canonical),
      type.indexOf? binding.1 ≠ some index := by
    intro binding hbinding
    obtain ⟨member, hmember, rfl⟩ := List.mem_map.1 hbinding
    exact hother member hmember
  have hkeys : ∀ {bindings : List (String × Json)},
      (∀ binding ∈ bindings, type.indexOf? binding.1 ≠ some index) →
      ∀ binding ∈ bindings, binding.1 ≠ key := by
    rintro bindings h binding hbinding rfl
    exact h binding hbinding hkey
  rw [hcanonical, hcanonical, List.map_append, List.map_cons, List.map_append]
  rw [List.map_append] at hindex
  have hbindings : ∀ binding ∈ OrderedMap.ofList
      (before.map (fun member => (member.1, member.2.canonical)) ++
        after.map fun member => (member.1, member.2.canonical)),
      type.indexOf? binding.1 ≠ some index := fun binding hbinding =>
    hindex binding (OrderedMap.mem_of_mem_ofList hbinding)
  obtain ⟨front, back, hrest, hinsert⟩ :=
    OrderedMap.exists_insert_eq_append (hkeys hbindings) json.canonical
  rw [OrderedMap.ofList_middle fun binding hbinding =>
    hkeys hindex binding (List.mem_append_right _ hbinding), hinsert, hrest, readObject_object,
    readObject_object]
  refine foldlM_middle fun binding hbinding record last => ?_
  have hapart : Apart type (key, json.canonical) binding := by
    rintro other hother' heq
    cases hkey.symm.trans hother'
    exact hbindings binding (hrest ▸ List.mem_append_right _ hbinding) heq
  exact ⟨readPair_swap hapart, readPair_swap fun other heq hother' => hapart other hother' heq⟩

/-- A text is JSON that is read as a record. -/
def ReadsAs (registry : Registry) (unknown : UnknownKeys) (type : MessageType) (text : String)
    (record : Record) : Prop :=
  ∃ json, Json.parse? text = some json ∧ read registry unknown type json = .ok record

/-- A text is decoded to the records that it is read as. -/
theorem decodeText_eq_ok_iff {text : String} {record : Record} :
    decodeText registry type text = .ok record ↔
      ReadsAs registry (if registry.options.ignoreUnknownJsonFields then .ignore else .refuse) type
        text record := by
  unfold decodeText ReadsAs
  cases Json.parse? text with
  | none => simp
  | some json => simp [decode]

/-- A record is created from the text of an object exactly if the text is read as the record, with
unknown keys ignored. -/
theorem exists_create_iff {spacing : Json.Spacing} {members : List Json.Written}
    {record : Record} :
    (∃ json, Json.parse? (Json.objectText spacing members) = some json ∧
        create registry type (some json) = .ok record) ↔
      ReadsAs registry .ignore type (Json.objectText spacing members) record := by
  refine exists_congr fun json => and_congr_right fun hparse => ?_
  obtain ⟨read, rfl⟩ := Json.exists_object_of_parse? hparse
  rfl

/-- Members that are spelled are spelled with values. -/
theorem exists_spelled {members : List Json.Written}
    (h : ∀ member ∈ members, ∃ json, member.Spells json) :
    ∃ spelled : List (Json.Written × Json), members = spelled.map Prod.fst ∧
      ∀ member ∈ spelled, member.1.Spells member.2 := by
  induction members with
  | nil => exact ⟨[], rfl, nofun⟩
  | cons member members ih =>
    obtain ⟨⟨json, hjson⟩, hrest⟩ := List.forall_mem_cons.1 h
    obtain ⟨spelled, rfl, hspelled⟩ := ih hrest
    exact ⟨(member, json) :: spelled, rfl, List.forall_mem_cons.2 ⟨hjson, hspelled⟩⟩

/-- In the text of an object, a member for a field that no other member is for adds the value of the
field to the record that the text is read as without it. -/
theorem readsAs_middle (spacing : Json.Spacing) (hfield : type.fields[index]? = some field)
    {before after : List Json.Written}
    (hspelled : ∀ other ∈ before ++ after, ∃ json, other.Spells json)
    (hother : ∀ other ∈ before ++ after, type.indexOf? other.key ≠ some index)
    {member : Json.Written} (hkey : type.indexOf? member.key = some index) {json : Json}
    {fits : Prop} [Decidable fits]
    (hmember : Json.Takes (Json.value (Json.maxDepth - 1)) member.chars json fits)
    (hnull : json.canonical ≠ .null) {record : Record} :
    ReadsAs registry unknown type (Json.objectText spacing (before ++ member :: after)) record ↔
      fits ∧ ∃ base v,
        ReadsAs registry unknown type (Json.objectText spacing (before ++ after)) base ∧
        readField (readLevels registry unknown registry.options.recursionLimit.toNat) registry
          type.name field json.canonical = .ok v ∧ base.set index (some v) = record := by
  obtain ⟨spelled, hmembers, hvalues⟩ := exists_spelled hspelled
  obtain ⟨before, after, rfl, rfl, rfl⟩ := List.map_eq_append_iff.1 hmembers.symm
  rw [← List.map_append] at hother ⊢
  have hindex : ∀ other ∈ before ++ after, type.indexOf? other.1.key ≠ some index :=
    fun other h => hother other.1 (List.mem_map_of_mem h)
  have hkeys : ∀ other ∈ before ++ after, other.1.key ≠ member.key :=
    fun other h heq => hindex other h (heq ▸ hkey)
  have hwith := Json.parse?_objectText_middle spacing hvalues hmember hkeys
  have hwithout : Json.parse? (Json.objectText spacing ((before ++ after).map Prod.fst))
      = some (Json.object (before.map (fun other => (other.1.key, other.2)) ++
          after.map fun other => (other.1.key, other.2))).canonical := by
    have hparse := Json.parse?_objectText spacing hvalues
    simpa using hparse
  unfold ReadsAs
  rw [hwith, hwithout]
  by_cases hfits : fits
  · simp only [hfits, if_true, Option.some.injEq, exists_eq_left', true_and]
    rw [read, readLevels, readLevels, readObject_middle hkey, except_bind_eq_ok]
    · simp only [readPair_eq_ok_iff hkey hfield hnull, exists_and_left]
    · rw [← List.map_append, List.forall_mem_map]
      exact hindex
  · simp [hfits]

/-- In the text of an object, an integer literal for a field of an integer kind that no other member
is for adds what the kind keeps of it to the record that the text is read as without it. -/
theorem readsAs_literal (spacing : Json.Spacing) (hfield : type.fields[index]? = some field)
    {kind : Scalar} (hscalar : field.kind = .scalar kind false) {least greatest : Int}
    (hkind : kind.integerBounds? = some (least, greatest)) {before after : List Json.Written}
    (hspelled : ∀ other ∈ before ++ after, ∃ json, other.Spells json)
    (hother : ∀ other ∈ before ++ after, type.indexOf? other.key ≠ some index)
    (hkey : type.indexOf? key = some index) (literal : Json.Literal) {record : Record} :
    ReadsAs registry unknown type
        (Json.objectText spacing (before ++ ⟨key, literal.chars⟩ :: after)) record ↔
      ∃ base v i,
        ReadsAs registry unknown type (Json.objectText spacing (before ++ after)) base ∧
        v.fits kind = true ∧ v.integer? = some i ∧
        keptInteger? least greatest literal.toInt = some i ∧ base.set index (some v) = record := by
  have hread : ∀ v, (literal.number?.isSome = true ∧ readField
        (readLevels registry unknown registry.options.recursionLimit.toNat) registry type.name
          field (.number (literal.number?.getD (.natural 0))) = .ok v) ↔
      v.fits kind = true ∧
        ∃ i, v.integer? = some i ∧ keptInteger? least greatest literal.toInt = some i := by
    intro v
    rw [← readScalar_literal hkind, readField, hscalar]
    simp only [ofField_eq_ok]
    cases literal.number? <;> simp
  have hkey : type.indexOf? (Json.Written.mk key literal.chars).key = some index := hkey
  have hnull : (Json.number (literal.number?.getD (.natural 0))).canonical ≠ .null := by
    rintro ⟨⟩
  rw [readsAs_middle spacing hfield hspelled hother hkey (literal.takes_chars _) hnull]
  constructor
  · rintro ⟨hsome, base, v, hbase, hv, hrecord⟩
    obtain ⟨hfits, i, hi, hkept⟩ := (hread v).1 ⟨hsome, hv⟩
    exact ⟨base, v, i, hbase, hfits, hi, hkept, hrecord⟩
  · rintro ⟨base, v, i, hbase, hfits, hi, hkept, hrecord⟩
    obtain ⟨hsome, hv⟩ := (hread v).2 ⟨hfits, i, hi, hkept⟩
    exact ⟨hsome, base, v, hbase, hv, hrecord⟩

end Members

/-- An integer literal for a field of an integer kind, at any place of the text of an object, is
stored as it is if it is an integer of the kind. It is refused otherwise, but for the 1024 integers
below the least one of 64 bits, instead of which a kind with this one stores it. -/
theorem decodeText_literal (registry : Registry) {type : MessageType} {index : Nat} {field : Field}
    (hfield : type.fields[index]? = some field) {kind : Scalar}
    (hscalar : field.kind = .scalar kind false) {least greatest : Int}
    (hkind : kind.integerBounds? = some (least, greatest)) {key : String}
    (hkey : type.indexOf? key = some index) (literal : Json.Literal) (spacing : Json.Spacing)
    {before after : List Json.Written}
    (hspelled : ∀ other ∈ before ++ after, ∃ json, other.Spells json)
    (hother : ∀ other ∈ before ++ after, type.indexOf? other.key ≠ some index) (record : Record) :
    let text := Json.objectText spacing (before ++ ⟨key, literal.chars⟩ :: after)
    let rest := Json.objectText spacing (before ++ after)
    (decodeText registry type text = .ok record ↔
      ∃ base v i, decodeText registry type rest = .ok base ∧ v.fits kind = true ∧
        v.integer? = some i ∧ keptInteger? least greatest literal.toInt = some i ∧
        base.set index (some v) = record) ∧
    ((∃ json, Json.parse? text = some json ∧ create registry type (some json) = .ok record) ↔
      ∃ base v i, (∃ json, Json.parse? rest = some json ∧
          create registry type (some json) = .ok base) ∧
        v.fits kind = true ∧ v.integer? = some i ∧
        keptInteger? least greatest literal.toInt = some i ∧ base.set index (some v) = record) := by
  intro text rest
  constructor
  · simp only [decodeText_eq_ok_iff]
    exact readsAs_literal spacing hfield hscalar hkind hspelled hother hkey literal
  · simp only [text, rest, exists_create_iff]
    exact readsAs_literal spacing hfield hscalar hkind hspelled hother hkey literal

/-- A type with a field for an integer and one for a text. -/
def counterType : MessageType where
  name := "Counter"
  fields := [⟨1, "count", none, .scalar .int64 false⟩, ⟨2, "label", none, .scalar .string false⟩]

/-- No blanks at all. -/
def noSpacing : Json.Spacing :=
  ⟨[], [], [], [], [], nofun⟩

/-- The literal of the least integer of 64 bits. -/
def leastLiteral : Json.Literal :=
  ⟨true, "9223372036854775808".toList, by decide, by decide, by decide⟩

/-- A label as it is written. -/
def writtenLabel : Json.Written :=
  ⟨"label", Json.quoted "a"⟩

/-- It is spelled. -/
theorem spells_writtenLabel : writtenLabel.Spells (.string "a") := by
  exact (Json.takes_spread (.string "a") .compact 0 (Json.maxDepth - 1)).congr (by decide)

/-- It is read. -/
theorem decodeText_writtenLabel :
    decodeText {} counterType (Json.objectText noSpacing [writtenLabel])
      = .ok [some (.i64 0), some (.string "a")] := by
  have hparse : Json.parse? (Json.objectText noSpacing [writtenLabel])
      = some (.object [("label", .string "a")]) := by
    have hspelled : ∀ member ∈ [(writtenLabel, Json.string "a")],
        member.1.Spells member.2 := by simpa using spells_writtenLabel
    have hparse := Json.parse?_objectText noSpacing hspelled
    rwa [if_pos (by simp)] at hparse
  rw [decodeText, hparse]
  rfl

/-- The least integer of 64 bits is stored as it is. -/
theorem decodeText_literal_counter :
    counterType.fields[0]? = some ⟨1, "count", none, .scalar .int64 false⟩ ∧
      Scalar.int64.integerBounds? = some (-2 ^ 63, 2 ^ 63 - 1) ∧
      counterType.indexOf? "count" = some 0 ∧
      (∀ other ∈ [writtenLabel] ++ [], ∃ json, other.Spells json) ∧
      (∀ other ∈ [writtenLabel] ++ [], counterType.indexOf? other.key ≠ some 0) ∧
      decodeText {} counterType
          (Json.objectText noSpacing ([writtenLabel] ++ [⟨"count", leastLiteral.chars⟩]))
        = .ok [some (.i64 (-9223372036854775808)), some (.string "a")] := by
  have hfield : counterType.fields[0]? = some ⟨1, "count", none, .scalar .int64 false⟩ := rfl
  have hkind : Scalar.int64.integerBounds? = some (-2 ^ 63, 2 ^ 63 - 1) := rfl
  have hkey : counterType.indexOf? "count" = some 0 := by decide
  have hspelled : ∀ other ∈ [writtenLabel] ++ [], ∃ json, other.Spells json := by
    simpa using ⟨_, spells_writtenLabel⟩
  have hother : ∀ other ∈ [writtenLabel] ++ [], counterType.indexOf? other.key ≠ some 0 := by
    decide
  refine ⟨hfield, hkind, hkey, hspelled, hother, ?_⟩
  refine ((decodeText_literal {} hfield rfl hkind hkey leastLiteral noSpacing hspelled hother _).1.2
    ⟨_, .i64 (-9223372036854775808), -2 ^ 63, decodeText_writtenLabel, rfl, rfl, by decide, rfl⟩)

/-- The literal of the greatest integer below those of 64 bits. -/
def lesserLiteral : Json.Literal :=
  ⟨true, "9223372036854775809".toList, by decide, by decide, by decide⟩

/-- The literal -9223372036854775809 is no integer of 64 bits and is stored all the same, as the
least one. -/
theorem not_refused_lesserLiteral :
    Json.objectText noSpacing [⟨"count", lesserLiteral.chars⟩]
        = "\x7b\"count\":-9223372036854775809\x7d" ∧
      ¬ (-2 ^ 63 ≤ lesserLiteral.toInt ∧ lesserLiteral.toInt ≤ 2 ^ 63 - 1) ∧
      decodeText {} counterType (Json.objectText noSpacing [⟨"count", lesserLiteral.chars⟩])
        = .ok [some (.i64 (-9223372036854775808)), some (.string "")] := by
  refine ⟨by decide, by decide, ?_⟩
  have hfield : counterType.fields[0]? = some ⟨1, "count", none, .scalar .int64 false⟩ := rfl
  have hnone : ∀ other ∈ ([] ++ [] : List (Json.Written × Json)), other.1.Spells other.2 := nofun
  have hempty : Json.parse? (Json.objectText noSpacing []) = some (.object []) := by
    have hparse := Json.parse?_objectText noSpacing hnone
    rwa [if_pos (by simp)] at hparse
  have hspelled : ∀ other ∈ ([] ++ [] : List Json.Written), ∃ json, other.Spells json := nofun
  have hother : ∀ other ∈ ([] ++ [] : List Json.Written),
      counterType.indexOf? other.key ≠ some 0 := nofun
  have hkey : counterType.indexOf? "count" = some 0 := by decide
  have hbase : ReadsAs {} .refuse counterType (Json.objectText noSpacing [])
      counterType.defaultRecord := ⟨_, hempty, rfl⟩
  exact decodeText_eq_ok_iff.2 <|
    (readsAs_literal noSpacing hfield rfl rfl hspelled hother hkey lesserLiteral).2
      ⟨_, .i64 (-9223372036854775808), -2 ^ 63, hbase, rfl, rfl, by decide, rfl⟩

end Plain

end DynProto
