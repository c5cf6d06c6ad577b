import DynProto.Proofs.Record.Nesting
import DynProto.Proofs.Traversal
import DynProto.Registry.Basic

/-!
# Canonical records

A codec takes more records than it gives. Slots may be missing or empty, a plain 32-bit integer
serves as the number of an enum value, and nothing else is free. `canonical` is the record that such
a record stands for: every slot is there, every empty one holds the default of its field, only
single messages stay unset, and enum positions hold enum numbers; likewise in all messages inside.
-/

namespace DynProto

/-- The number of an enum value, where a plain 32-bit integer may stand for one. -/
def Value.asEnum : Value → Value
  | .i32 n => .enum n
  | v => v

/-- A value that stands for an enum number holds no message. -/
theorem Value.depth_of_asEnum {v : Value} {n : Int32} (h : v.asEnum = .enum n) : v.depth = 0 := by
  cases v <;> cases h <;> rfl

/-- Values that stand for enum numbers hold no message. -/
theorem Value.depth_of_asEnums {vs : List Value} {numbers : List Int32}
    (h : List.Forall₂ (fun v n => v.asEnum = .enum n) vs numbers) : (Value.list vs).depth = 0 := by
  refine depth_list_eq_zero fun v hv => ?_
  obtain ⟨n, _, hn⟩ := exists_of_forall₂ h hv
  exact depth_of_asEnum hn

/-- What a single field holds that has the values of a map. -/
def MapValue.fieldKind : MapValue → FieldKind
  | .scalar kind => .scalar kind false
  | .enum type => .enum type false
  | .message type => .message type false

/-- The fields of the message type with a name; none if there is no such type. -/
def Registry.fieldsOf (registry : Registry) (name : String) : List Field :=
  match registry.codecMessageType name with
  | .ok type => type.fields
  | .error _ => []

/-- The fields of a type that is found. -/
theorem Registry.fieldsOf_of_codecMessageType {registry : Registry} {name : String}
    {type : MessageType} (h : registry.codecMessageType name = .ok type) :
    registry.fieldsOf name = type.fields := by
  unfold fieldsOf
  rw [h]

namespace Registry

variable (registry : Registry)

mutual

/-- The value that the value of a field stands for. -/
def canonicalValue : FieldKind → Value → Value
  | .enum _ false, v => v.asEnum
  | .enum type true, .list vs => .list (canonicalElements (.enum type false) vs)
  | .message type false, .message slots => .message (canonicalSlots (registry.fieldsOf type) slots)
  | .message type true, .list vs => .list (canonicalElements (.message type false) vs)
  | .map _ value, .map entries => .map (OrderedMap.ofList (canonicalEntries value entries))
  | _, v => v
termination_by structural _ v => v

/-- The slots that the slots of a message stand for. -/
def canonicalSlots : List Field → List (Option Value) → List (Option Value)
  | fields, [] => fields.map fun field => field.kind.default
  | [], _ => []
  | field :: fields, none :: slots => field.kind.default :: canonicalSlots fields slots
  | field :: fields, some v :: slots =>
    some (canonicalValue field.kind v) :: canonicalSlots fields slots
termination_by structural _ slots => slots

/-- The values that the elements of a list stand for, each as the value of a field. -/
def canonicalElements : FieldKind → List Value → List Value
  | _, [] => []
  | kind, v :: vs => canonicalValue kind v :: canonicalElements kind vs
termination_by structural _ vs => vs

/-- The entries that the entries of a map stand for. -/
def canonicalEntries : MapValue → List (MapKey × Value) → List (MapKey × Value)
  | _, [] => []
  | value, (k, v) :: entries =>
    (k, canonicalValue value.fieldKind v) :: canonicalEntries value entries
termination_by structural _ es => es

end

/-- The record that a record of a type stands for. -/
def canonical (type : MessageType) (record : Record) : Record :=
  registry.canonicalSlots type.fields record

/-- Scalar values stand for themselves. -/
@[simp] theorem canonicalValue_scalar (kind : Scalar) (repeated : Bool) (v : Value) :
    registry.canonicalValue (.scalar kind repeated) v = v := by
  cases v <;> rfl

/-- A message whose type is found stands for the message that its record stands for. -/
theorem canonicalValue_message {registry : Registry} {name : String} {child : MessageType}
    (h : registry.codecMessageType name = .ok child) (slots : Record) :
    registry.canonicalValue (.message name false) (.message slots)
      = .message (registry.canonical child slots) := by
  rw [canonicalValue, fieldsOf_of_codecMessageType h]
  rfl

/-- What the slot of a field stands for. -/
def canonicalSlot (kind : FieldKind) (slot : Option Value) : Option Value :=
  slot.elim kind.default fun v => some (registry.canonicalValue kind v)

/-- Each slot stands for something by itself. -/
theorem getElem?_canonicalSlots (fields : List Field) (slots : Record) (i : Nat) :
    (registry.canonicalSlots fields slots)[i]?
      = (fields[i]?).map fun field => registry.canonicalSlot field.kind (slots.value? i) := by
  induction fields generalizing slots i with
  | nil => cases slots <;> simp [canonicalSlots]
  | cons field fields ih =>
    rcases slots with _ | ⟨slot, slots⟩
    · simp only [canonicalSlots, canonicalSlot, Record.value?, List.getElem?_map]
      rfl
    · cases i with
      | zero => cases slot <;> simp [canonicalSlots, canonicalSlot, Record.value?]
      | succ i => cases slot <;> simpa [canonicalSlots, Record.value?] using ih slots i

/-- Each slot of a canonical record holds what the slot of the record stands for. -/
theorem value?_canonical {type : MessageType} {i : Nat} {field : Field}
    (hfield : type.fields[i]? = some field) (record : Record) :
    (registry.canonical type record).value? i
      = registry.canonicalSlot field.kind (record.value? i) := by
  rw [Record.value?, canonical, getElem?_canonicalSlots, hfield]
  rfl

/-- A canonical record has a slot for every field. -/
@[simp] theorem length_canonicalSlots (fields : List Field) (slots : Record) :
    (registry.canonicalSlots fields slots).length = fields.length := by
  induction fields generalizing slots with
  | nil => cases slots <;> simp [canonicalSlots]
  | cons field fields ih =>
    rcases slots with _ | ⟨_ | v, slots⟩ <;> simp [canonicalSlots, ih]

/-- Elements stand for something one by one. -/
theorem canonicalElements_eq_map (kind : FieldKind) (vs : List Value) :
    registry.canonicalElements kind vs = vs.map (registry.canonicalValue kind) := by
  induction vs with
  | nil => rfl
  | cons v vs ih => rw [canonicalElements, ih, List.map_cons]

/-- Values that each stand for an enum number stand for the list of the numbers. -/
theorem canonicalValue_enums {name : String} {vs : List Value} {numbers : List Int32}
    (h : List.Forall₂ (fun v n => v.asEnum = .enum n) vs numbers) :
    registry.canonicalValue (.enum name true) (.list vs) = .list (numbers.map .enum) := by
  rw [canonicalValue, canonicalElements_eq_map]
  refine congrArg Value.list ?_
  induction h with
  | nil => rfl
  | cons hn _ ih => rw [List.map_cons, List.map_cons, ih, canonicalValue, hn]

/-- Entries stand for something one by one, and keep their keys. -/
theorem canonicalEntries_eq_map (value : MapValue) (entries : List (MapKey × Value)) :
    registry.canonicalEntries value entries
      = entries.map fun entry => (entry.1, registry.canonicalValue value.fieldKind entry.2) := by
  induction entries with
  | nil => rfl
  | cons entry entries ih => rw [canonicalEntries, ih, List.map_cons]

end Registry

/-! ## Slot by slot -/

namespace Record

/-- The places of the slots that hold a value. -/
def places (record : Record) : List Nat :=
  (List.range record.length).filter fun i => (record.value? i).isSome

/-- A place is one of a slot that holds a value. -/
theorem mem_places {record : Record} {i : Nat} :
    i ∈ record.places ↔ ∃ v, record.value? i = some v := by
  rw [places, List.mem_filter, List.mem_range, Option.isSome_iff_exists]
  refine and_iff_right_of_imp ?_
  rintro ⟨v, hv⟩
  exact (List.getElem?_eq_some_iff.1 (Option.join_eq_some_iff.1 hv)).1

/-- Each place is listed once. -/
theorem nodup_places (record : Record) : record.places.Nodup :=
  List.nodup_range.filter _

/-- The places of a record whose first slot holds a value. -/
theorem places_some (v : Value) (slots : Record) :
    places (some v :: slots) = 0 :: (places slots).map (· + 1) := by
  unfold places
  rw [List.length_cons, List.range_succ_eq_map, List.filter_cons, List.filter_map]
  rfl

/-- The places of a record whose first slot is empty. -/
theorem places_none (slots : Record) : places (none :: slots) = (places slots).map (· + 1) := by
  unfold places
  rw [List.length_cons, List.range_succ_eq_map, List.filter_cons, List.filter_map]
  rfl

/-- A depth bounds a record exactly if it bounds the slots that hold values. -/
theorem depth_le_iff_places {record : Record} {n : Nat} :
    record.depth ≤ n ↔ ∀ i ∈ record.places, record.depthAt i ≤ n := by
  rw [depth_le_iff_depthAt]
  refine ⟨fun h i _ => h i, fun h i => ?_⟩
  by_cases hi : i ∈ record.places
  · exact h i hi
  · rw [mem_places, ← Option.isSome_iff_exists, Bool.not_eq_true, Option.isSome_eq_false_iff,
      Option.isNone_iff_eq_none] at hi
    rw [depthAt, hi]
    exact Nat.zero_le n

/-- Setting slots one after the other leaves in each of them what it is set to. -/
theorem getElem?_foldl_set (slot : Nat → Option Value) (order : List Nat) (record : Record)
    (i : Nat) :
    (order.foldl (fun record j => record.set j (slot j)) record)[i]?
      = if i ∈ order then (record[i]?).map fun _ => slot i else record[i]? := by
  induction order generalizing record with
  | nil => simp
  | cons j order ih =>
    rw [List.foldl_cons, ih, List.getElem?_set]
    by_cases hij : j = i
    · subst hij
      rcases hrecord : record[j]? with _ | old
      · rw [List.getElem?_eq_none_iff] at hrecord
        simp [Nat.not_lt.2 hrecord]
      · have hlt := (List.getElem?_eq_some_iff.1 hrecord).1
        simp [hlt]
    · rw [if_neg hij]
      have hmem : i ∈ j :: order ↔ i ∈ order := by
        rw [List.mem_cons]
        exact or_iff_right (Ne.symm hij)
      simp only [hmem]

end Record

/-- Setting slots of the default record to what the slots of a record stand for gives the canonical
record, if no slot that holds a value is left out. -/
theorem Registry.foldl_set_canonicalSlot (registry : Registry) (type : MessageType)
    (record : Record) {order : List Nat}
    (h : ∀ i field v, type.fields[i]? = some field → record.value? i = some v → i ∈ order) :
    order.foldl (fun filled i => filled.set i ((type.fields[i]?).bind fun field =>
      registry.canonicalSlot field.kind (record.value? i))) type.defaultRecord
      = registry.canonical type record := by
  refine List.ext_getElem? fun i => ?_
  rw [Record.getElem?_foldl_set, canonical, getElem?_canonicalSlots, MessageType.defaultRecord,
    List.getElem?_map]
  rcases hfield : type.fields[i]? with _ | field
  · simp
  · by_cases hi : i ∈ order
    · rw [if_pos hi]
      rfl
    · rw [if_neg hi]
      -- a slot that is left out holds no value and stands for the default
      rcases hv : record.value? i with _ | v
      · rfl
      · exact absurd (h i field v hfield hv) hi

end DynProto
