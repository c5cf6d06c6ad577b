import DynProto.Value
import Mathlib

/-!
# Values inside values

A record holds values, and through messages, lists and maps these hold values in turn.
`Record.depth` counts how deeply messages are nested in one another; the record itself is not
counted, and an element of a list or a value of a map counts as much as a message that is held
directly. `Record.Contains` says that a value is somewhere in a record, however deep.
-/

namespace DynProto

/-! ## Depth -/

namespace Value

mutual

/-- How many messages are nested in one another inside a value, the value itself included. -/
def depth : Value → Nat
  | message slots => slotsDepth slots + 1
  | list elements => elementsDepth elements
  | map entries => entriesDepth entries
  | _ => 0

/-- The largest depth of a slot. -/
def slotsDepth : List (Option Value) → Nat
  | [] => 0
  | none :: slots => slotsDepth slots
  | some v :: slots => max v.depth (slotsDepth slots)

/-- The largest depth of an element. -/
def elementsDepth : List Value → Nat
  | [] => 0
  | v :: elements => max v.depth (elementsDepth elements)

/-- The largest depth of the value of an entry. -/
def entriesDepth : List (MapKey × Value) → Nat
  | [] => 0
  | (_, v) :: entries => max v.depth (entriesDepth entries)

end

/-- A value of a scalar kind holds no message. -/
theorem depth_of_fits {kind : Scalar} {v : Value} (h : v.fits kind = true) : v.depth = 0 := by
  cases v <;> simp_all [fits, depth]

/-- A depth bounds all elements exactly if it bounds each. -/
theorem elementsDepth_le_iff {elements : List Value} {n : Nat} :
    elementsDepth elements ≤ n ↔ ∀ v ∈ elements, v.depth ≤ n := by
  induction elements with
  | nil => simp [elementsDepth]
  | cons v elements ih => rw [elementsDepth, Nat.max_le, ih, List.forall_mem_cons]

/-- A list of values that are not nested is not nested. -/
theorem depth_list_eq_zero {elements : List Value} (h : ∀ v ∈ elements, v.depth = 0) :
    (list elements).depth = 0 :=
  Nat.le_zero.1 (elementsDepth_le_iff.2 fun v hv => Nat.le_of_eq (h v hv))

/-- A depth bounds all entries exactly if it bounds the value of each. -/
theorem entriesDepth_le_iff {entries : List (MapKey × Value)} {n : Nat} :
    entriesDepth entries ≤ n ↔ ∀ entry ∈ entries, entry.2.depth ≤ n := by
  induction entries with
  | nil => simp [entriesDepth]
  | cons entry entries ih => rw [entriesDepth, Nat.max_le, ih, List.forall_mem_cons]

end Value

namespace Record

/-- How many messages are nested in one another inside a record, the record itself not
included. -/
def depth (record : Record) : Nat :=
  Value.slotsDepth record

/-- The depth of a message is one more than that of its record. -/
theorem depth_message (slots : Record) : (Value.message slots).depth = depth slots + 1 := rfl

/-- A result that is there where messages may be nested deeply enough for a record, put into a
message by a function. -/
theorem map_guarded {ε α β : Type} {slots : Record} {levels : Nat} {a : α} {error : ε}
    (f : α → β) :
    (if slots.depth < levels then .ok a else .error error : Except ε α).map f
      = if (Value.message slots).depth ≤ levels then .ok (f a) else .error error := by
  rw [depth_message]
  by_cases hlt : slots.depth < levels
  · rw [if_pos hlt]
    exact (if_pos hlt).symm
  · rw [if_neg hlt]
    exact (if_neg hlt).symm

/-- What holds of a record if it holds of all that are nested less deeply holds of every record. -/
theorem depth_induction {P : Record → Prop}
    (h : ∀ record : Record, (∀ slots : Record, slots.depth < record.depth → P slots) → P record)
    (record : Record) : P record :=
  (measure Record.depth).wf.induction record h

/-- A depth bounds a record exactly if it bounds the value in each slot. -/
theorem depth_le_iff {record : Record} {n : Nat} :
    record.depth ≤ n ↔ ∀ i v, record.value? i = some v → v.depth ≤ n := by
  have hmem : record.depth ≤ n ↔ ∀ v, some v ∈ record → v.depth ≤ n := by
    unfold depth
    induction record with
    | nil => simp [Value.slotsDepth]
    | cons slot slots ih =>
      cases slot with
      | none => simp [Value.slotsDepth, ih]
      | some v =>
        rw [Value.slotsDepth, Nat.max_le, ih]
        simp
  rw [hmem]
  constructor
  · intro h i v hv
    exact h v (List.mem_of_getElem? (Option.join_eq_some_iff.1 hv))
  · intro h v hv
    obtain ⟨i, hi⟩ := List.mem_iff_getElem?.1 hv
    exact h i v (Option.join_eq_some_iff.2 hi)

/-- The depth of the value in a slot; an empty or missing slot has none. -/
def depthAt (record : Record) (i : Nat) : Nat :=
  (record.value? i).elim 0 Value.depth

/-- Beyond the slots of a record there is no depth. -/
theorem depthAt_of_length_le {record : Record} {i : Nat} (h : record.length ≤ i) :
    record.depthAt i = 0 := by
  unfold depthAt value?
  rw [List.getElem?_eq_none_iff.2 h]
  rfl

/-- A depth bounds a record exactly if it bounds each slot. -/
theorem depth_le_iff_depthAt {record : Record} {n : Nat} :
    record.depth ≤ n ↔ ∀ i, record.depthAt i ≤ n := by
  rw [depth_le_iff]
  refine forall_congr' fun i => ?_
  unfold depthAt
  rcases record.value? i with _ | v <;> simp

/-! ## Contents -/

/-- A value that is somewhere in a record, however deep. -/
inductive Contains (record : Record) : Value → Prop
  /-- The value in a slot. -/
  | slot {i : Nat} {v : Value} (h : record.value? i = some v) : Contains record v
  /-- The value in a slot of a message that is contained. -/
  | inner {slots : Record} {i : Nat} {v : Value} (hmessage : Contains record (.message slots))
      (h : slots.value? i = some v) : Contains record v
  /-- An element of a list that is contained. -/
  | element {elements : List Value} {v : Value} (hlist : Contains record (.list elements))
      (h : v ∈ elements) : Contains record v
  /-- The value of an entry of a map that is contained. -/
  | entry {entries : List (MapKey × Value)} {entry : MapKey × Value}
      (hmap : Contains record (.map entries)) (h : entry ∈ entries) : Contains record entry.2

/-- What a contained message contains is contained. -/
theorem Contains.trans {record slots : Record} {v : Value}
    (hmessage : record.Contains (.message slots)) (h : slots.Contains v) : record.Contains v := by
  induction h with
  | slot h => exact .inner hmessage h
  | inner _ h ih => exact .inner ih h
  | element _ h ih => exact .element ih h
  | entry _ h ih => exact .entry ih h

end Record

end DynProto
