import DynProto.Binary.Reader
import DynProto.Proofs.Binary.WellFormed
import DynProto.Proofs.Wire.Reading

/-!
# Octets that fill slots

How octets that a writer put one after the other are read. `Yields` says which fields of the type
occur in them, whatever follows. `Fills` says what these fields do to a record: they take one slot
from what it holds before to what it holds after, and touch no other, or they fail. Both are closed
under appending, so the octets of a list fill a slot if those of each element do (`fills_flatMap`),
and the octets of a message fill all slots if those of each field do (`foldlM_of_fills`).
-/

namespace DynProto.Binary

open Wire

variable {type : MessageType} {step : Record → Occurrence → Except CodecError Record}

/-! ## Occurrences -/

/-- These fields, all of them known, occur in the octets, whatever follows. -/
structure Yields (type : MessageType) (bytes : Bytes) (fields : List Occurrence) : Prop where
  /-- They occur before what follows. -/
  occurs : ∀ rest, occurrences type (bytes ++ rest)
    = (fields ++ (occurrences type rest).1, (occurrences type rest).2)
  /-- The type has them all. -/
  known : .unknown ∉ fields

/-- No field occurs in no octets. -/
theorem yields_nil : Yields type [] [] where
  occurs _ := rfl
  known := List.not_mem_nil

/-- What occurs in the front occurs before what occurs in the back. -/
theorem Yields.append {front back : Bytes} {fields more : List Occurrence}
    (h : Yields type front fields) (h' : Yields type back more) :
    Yields type (front ++ back) (fields ++ more) where
  occurs rest := by
    rw [List.append_assoc, h.occurs (back ++ rest), h'.occurs rest, List.append_assoc]
  known := by
    rw [List.mem_append]
    exact not_or_intro h.known h'.known

/-- Octets that are read as a field. -/
theorem yields_of_reads {bytes : Bytes} {occurrence : Occurrence}
    (h : (fieldReader type).Reads bytes occurrence) (hknown : occurrence ≠ .unknown) :
    Yields type bytes [occurrence] where
  occurs rest := occurrences_of_run (h rest)
  known := by
    rw [List.mem_singleton]
    exact hknown.symm

/-- Nothing else occurs in the octets by themselves. -/
theorem Yields.occurrences_eq {bytes : Bytes} {fields : List Occurrence}
    (h : Yields type bytes fields) : occurrences type bytes = (fields, none) := by
  have hall := h.occurs []
  rwa [List.append_nil, occurrences_nil, List.append_nil] at hall

/-- The fields of the front are applied before the octets of the back are read. -/
theorem foldFields_of_occurrences {front back : Bytes} {fields : List Occurrence}
    (h : occurrences type (front ++ back)
      = (fields ++ (occurrences type back).1, (occurrences type back).2)) (record : Record) :
    foldFields type step record (front ++ back)
      = fields.foldlM step record >>= fun record => foldFields type step record back := by
  unfold foldFields
  rw [h]
  show ((fields ++ (occurrences type back).1).foldlM step record >>= _) = _
  rw [List.foldlM_append]
  cases fields.foldlM step record <;> rfl

/-- Where all fields of the front are known, they are applied first. -/
theorem foldFields_append {front : Bytes} {fields : List Occurrence} (h : Yields type front fields)
    (record : Record) (back : Bytes) : foldFields type step record (front ++ back)
      = fields.foldlM step record >>= fun record => foldFields type step record back :=
  foldFields_of_occurrences (h.occurs back) record

/-- Nothing is wrong with octets that are read to their end. -/
theorem foldFields_of_yields {bytes : Bytes} {fields : List Occurrence}
    (h : Yields type bytes fields) (record : Record) :
    foldFields type step record bytes = fields.foldlM step record := by
  unfold foldFields
  rw [h.occurrences_eq]
  show (fields.foldlM step record >>= fun record => .ok record) = _
  cases fields.foldlM step record <;> rfl

/-! ## One slot -/

/-- The fields that occur in the octets take a slot from `before` to `after` and touch no other, or
they fail as `after` does. -/
def Fills (step : Record → Occurrence → Except CodecError Record) (type : MessageType) (index : Nat)
    (bytes : Bytes) (before : Option Value) (after : Except CodecError (Option Value)) : Prop :=
  ∃ fields, Yields type bytes fields ∧ ∀ record : Record, record[index]? = some before →
    fields.foldlM step record = after.map fun slot => record.set index slot

variable {index : Nat} {before : Option Value} {after : Except CodecError (Option Value)}

/-- No octets leave a slot as it is. -/
theorem fills_nil : Fills step type index [] before (.ok before) := by
  refine ⟨[], yields_nil, fun record hslot => ?_⟩
  obtain ⟨hlt, rfl⟩ := List.getElem?_eq_some_iff.1 hslot
  show Except.ok record = Except.ok (record.set index record[index])
  rw [List.set_getElem_self]

/-- Octets of one field. -/
theorem fills_of_reads {bytes : Bytes} {occurrence : Occurrence}
    (hread : (fieldReader type).Reads bytes occurrence) (hknown : occurrence ≠ .unknown)
    (hstep : ∀ record : Record, record[index]? = some before →
      step record occurrence = after.map fun slot => record.set index slot) :
    Fills step type index bytes before after := by
  refine ⟨[occurrence], yields_of_reads hread hknown, fun record hslot => ?_⟩
  rw [List.foldlM_cons, hstep record hslot]
  cases after <;> rfl

/-- A slot is filled by the front and then by the back. -/
theorem Fills.append {front back : Bytes} {middle : Option Value}
    (h : Fills step type index front before (.ok middle))
    (h' : Fills step type index back middle after) :
    Fills step type index (front ++ back) before after := by
  obtain ⟨fields, hyields, hfold⟩ := h
  obtain ⟨more, hyields', hfold'⟩ := h'
  refine ⟨fields ++ more, hyields.append hyields', fun record hslot => ?_⟩
  have hlt := (List.getElem?_eq_some_iff.1 hslot).1
  rw [List.foldlM_append, hfold record hslot]
  show more.foldlM step (record.set index middle) = _
  rw [hfold' _ (by simp [hlt])]
  cases after with
  | error error => rfl
  | ok slot => exact congrArg Except.ok (List.set_set middle)

/-- What fails in the front does not come to the back. -/
theorem Fills.append_error {front back : Bytes} {error : CodecError} {other : Option Value}
    (h : Fills step type index front before (.error error))
    (h' : Fills step type index back other after) :
    Fills step type index (front ++ back) before (.error error) := by
  obtain ⟨fields, hyields, hfold⟩ := h
  obtain ⟨more, hyields', _⟩ := h'
  refine ⟨fields ++ more, hyields.append hyields', fun record hslot => ?_⟩
  rw [List.foldlM_append, hfold record hslot]
  rfl

/-- A slot is filled element by element: each takes it on to the next state, or fails with one and
the same error. -/
theorem fills_flatMap {α β σ : Type} {bytes : β → Bytes} (slot : σ → Option Value)
    (next : σ → α → σ) {ok : α → Prop} [DecidablePred ok] {error : CodecError} {R : α → β → Prop}
    {as : List α} {bs : List β} (h : List.Forall₂ R as bs)
    (hfills : ∀ a b, a ∈ as → b ∈ bs → R a b → ∀ s, Fills step type index (bytes b) (slot s)
      (if ok a then .ok (slot (next s a)) else .error error)) (s : σ) :
    Fills step type index (bs.flatMap bytes) (slot s)
      (if ∀ a ∈ as, ok a then .ok (slot (as.foldl next s)) else .error error) := by
  induction h generalizing s with
  | nil => simpa using fills_nil
  | @cons a b as bs hab _ ih =>
    have hfirst := hfills a b List.mem_cons_self List.mem_cons_self hab s
    have hrest := ih (fun a' b' ha hb => hfills a' b' (List.mem_cons_of_mem a ha)
      (List.mem_cons_of_mem b hb)) (next s a)
    rw [List.flatMap_cons]
    by_cases ha : ok a
    · rw [if_pos ha] at hfirst
      have hiff : (∀ a' ∈ a :: as, ok a') ↔ ∀ a' ∈ as, ok a' := by
        rw [List.forall_mem_cons]
        exact and_iff_right ha
      simp only [hiff]
      exact hfirst.append hrest
    · rw [if_neg ha] at hfirst
      rw [if_neg fun hall => ha (hall a List.mem_cons_self)]
      exact hfirst.append_error hrest

/-! ## All slots -/

/-- Slots are filled one after the other, each once, or one of them fails. -/
theorem foldlM_of_fills {order : List Nat} (hnodup : order.Nodup) {pieces : Nat → Bytes}
    {before slot : Nat → Option Value} {ok : Nat → Prop} [DecidablePred ok] {error : CodecError}
    (hfills : ∀ i ∈ order, Fills step type i (pieces i) (before i)
      (if ok i then .ok (slot i) else .error error)) :
    ∃ fields, Yields type (order.flatMap pieces) fields ∧
      ∀ record : Record, (∀ i ∈ order, record[i]? = some (before i)) →
        fields.foldlM step record
          = if ∀ i ∈ order, ok i then
              .ok (order.foldl (fun record i => record.set i (slot i)) record)
            else .error error := by
  induction order with
  | nil => exact ⟨[], yields_nil, fun record _ => by simp [pure, Except.pure]⟩
  | cons i order ih =>
    obtain ⟨hi, hnodup⟩ := List.nodup_cons.1 hnodup
    obtain ⟨fields, hyields, hfold⟩ := hfills i List.mem_cons_self
    obtain ⟨more, hyields', hfold'⟩ := ih hnodup fun j hj => hfills j (List.mem_cons_of_mem i hj)
    refine ⟨fields ++ more, hyields.append hyields', fun record hbefore => ?_⟩
    rw [List.foldlM_append, hfold record (hbefore i List.mem_cons_self)]
    by_cases hok : ok i
    · rw [if_pos hok]
      show more.foldlM step (record.set i (slot i)) = _
      rw [hfold' _ fun j hj => ?_]
      · have hiff : (∀ j ∈ i :: order, ok j) ↔ ∀ j ∈ order, ok j := by
          rw [List.forall_mem_cons]
          exact and_iff_right hok
        simp only [hiff, List.foldl_cons]
      · have hne : i ≠ j := fun heq => hi (heq ▸ hj)
        rw [List.getElem?_set_ne hne]
        exact hbefore j (List.mem_cons_of_mem i hj)
    · rw [if_neg hok, if_neg fun hall => hok (hall i List.mem_cons_self)]
      rfl

end DynProto.Binary
