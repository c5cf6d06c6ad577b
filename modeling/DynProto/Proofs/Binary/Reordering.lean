import DynProto.Proofs.Binary.Resumption

/-!
# Fields in another order

A field that occurs in octets changes the slot at its place by what was in this slot before, and no
other slot (`apply_at`). So a run of fields is as many runs as there are slots, one beside the
other: it goes through exactly if the fields of each place go through by themselves, and in each
slot it leaves what they leave (`exists_alone`, `exists_of_alone`). Whatever the order is in which
fields of different places stand, the record is the same (`foldlM_reordered`). For octets this means
that fields may be moved past fields with other numbers, and unknown ones past any
(`decode_reordered`).
-/

namespace DynProto.Binary

open Wire

variable {nested : Nested} {registry : Registry} {type : MessageType}
  {record record' next last : Record} {occurrence : Occurrence} {fields : List Occurrence}

/-! ## One slot -/

/-- Applying a field is an update of the slot at its place. -/
theorem exists_update (nested : Nested) (registry : Registry) (type : MessageType) {i : Nat}
    (hplace : occurrence.place? = some i) :
    ∃ change, ∀ record, apply nested registry type record occurrence
      = update type record i change := by
  cases occurrence <;> cases hplace <;> exact ⟨_, fun _ => rfl⟩

/-- An unknown field changes nothing. -/
theorem apply_of_place?_eq_none (hplace : occurrence.place? = none) (record : Record) :
    apply nested registry type record occurrence = .ok record := by
  cases occurrence <;> cases hplace
  rfl

/-- A field sets the slot at its place, to the same value in all records with the same slot
there. -/
theorem apply_at {i : Nat} (hplace : occurrence.place? = some i)
    (h : apply nested registry type record occurrence = .ok next) :
    ∃ v, i < record.length ∧ next = record.set i (some v) ∧
      ∀ record' : Record, record'[i]? = record[i]? →
        apply nested registry type record' occurrence = .ok (record'.set i (some v)) := by
  obtain ⟨change, hchange⟩ := exists_update nested registry type hplace
  rw [hchange] at h
  obtain ⟨slot, v, hslot, hv, rfl⟩ := update_eq_ok h
  refine ⟨v, (List.getElem?_eq_some_iff.1 hslot).1, rfl, fun record' hsame => ?_⟩
  rw [hchange, update_of_getElem? (hsame.trans hslot), hv]
  rfl

/-- No other slot is changed. -/
theorem getElem?_of_apply {i : Nat} (hplace : occurrence.place? ≠ some i)
    (h : apply nested registry type record occurrence = .ok next) : next[i]? = record[i]? := by
  rcases hother : occurrence.place? with _ | j
  · rw [apply_of_place?_eq_none hother] at h
    cases h
    rfl
  · obtain ⟨v, _, rfl, _⟩ := apply_at hother h
    have hne : j ≠ i := fun heq => hplace (heq ▸ hother)
    exact List.getElem?_set_ne hne

/-! ## Slot by slot -/

/-- The fields at a place, in their order. -/
def fieldsAt (i : Nat) (fields : List Occurrence) : List Occurrence :=
  fields.filter fun occurrence => occurrence.place? = some i

/-- Where fields go through, those at a place go through by themselves, from any record with the
same slot, and leave the same in it. -/
theorem exists_alone {i : Nat} (h : fields.foldlM (apply nested registry type) record = .ok last)
    (hsame : record'[i]? = record[i]?) :
    ∃ alone, (fieldsAt i fields).foldlM (apply nested registry type) record' = .ok alone ∧
      alone[i]? = last[i]? := by
  induction fields generalizing record record' with
  | nil =>
    cases h
    exact ⟨record', rfl, hsame⟩
  | cons occurrence fields ih =>
    rw [List.foldlM_cons] at h
    obtain ⟨next, hnext, h⟩ := except_bind_eq_ok.1 h
    by_cases hplace : occurrence.place? = some i
    · obtain ⟨v, hlt, rfl, happly⟩ := apply_at hplace hnext
      have hlt' : i < record'.length := by
        rw [List.getElem?_eq_getElem hlt] at hsame
        exact (List.getElem?_eq_some_iff.1 hsame).1
      have hset : (record'.set i (some v))[i]? = (record.set i (some v))[i]? := by
        rw [List.getElem?_set_self hlt, List.getElem?_set_self hlt']
      obtain ⟨alone, halone, hlast⟩ := ih h hset
      refine ⟨alone, ?_, hlast⟩
      rw [fieldsAt, List.filter_cons_of_pos (by simpa using hplace), List.foldlM_cons,
        happly record' hsame]
      exact halone
    · rw [fieldsAt, List.filter_cons_of_neg (by simpa using hplace)]
      exact ih h (hsame.trans (getElem?_of_apply hplace hnext).symm)

/-- Where the fields at each place go through by themselves, all of them go through. -/
theorem exists_of_alone (h : ∀ i, ∃ alone,
      (fieldsAt i fields).foldlM (apply nested registry type) record = .ok alone) :
    ∃ last, fields.foldlM (apply nested registry type) record = .ok last := by
  induction fields generalizing record with
  | nil => exact ⟨record, rfl⟩
  | cons occurrence fields ih =>
    simp only [List.foldlM_cons]
    rcases hplace : occurrence.place? with _ | j
    · rw [apply_of_place?_eq_none hplace]
      refine ih fun i => ?_
      obtain ⟨alone, halone⟩ := h i
      rw [fieldsAt, List.filter_cons_of_neg (by simp [hplace])] at halone
      exact ⟨alone, halone⟩
    · obtain ⟨alone, halone⟩ := h j
      rw [fieldsAt, List.filter_cons_of_pos (by simp [hplace]), List.foldlM_cons] at halone
      obtain ⟨next, hnext, hrest⟩ := except_bind_eq_ok.1 halone
      rw [hnext]
      refine ih fun i => ?_
      by_cases hij : j = i
      · subst hij
        exact ⟨alone, hrest⟩
      · obtain ⟨other, hother⟩ := h i
        have hne : occurrence.place? ≠ some i := by simpa [hplace] using hij
        rw [fieldsAt, List.filter_cons_of_neg (by simpa using hne)] at hother
        -- the slot at the other place is still what it was
        obtain ⟨after, hafter, _⟩ := exists_alone hother (getElem?_of_apply hne hnext)
        rw [fieldsAt, List.filter_filter] at hafter
        simp only [Bool.and_self] at hafter
        exact ⟨after, hafter⟩

/-- Fields that stand in the same order at each place change a record in the same way. -/
theorem foldlM_reordered {fields' : List Occurrence}
    (h : fields.foldlM (apply nested registry type) record = .ok last)
    (hsame : ∀ i, fieldsAt i fields' = fieldsAt i fields) :
    fields'.foldlM (apply nested registry type) record = .ok last := by
  obtain ⟨last', hlast'⟩ : ∃ last', fields'.foldlM (apply nested registry type) record
      = .ok last' := by
    refine exists_of_alone fun i => ?_
    obtain ⟨alone, halone, _⟩ := exists_alone (i := i) h rfl
    exact ⟨alone, (hsame i).symm ▸ halone⟩
  rw [hlast']
  refine congrArg Except.ok (List.ext_getElem? fun i => ?_)
  obtain ⟨alone, halone, hslot⟩ := exists_alone (i := i) h rfl
  obtain ⟨alone', halone', hslot'⟩ := exists_alone (i := i) hlast' rfl
  rw [hsame i, halone] at halone'
  cases halone'
  rw [← hslot, ← hslot']

/-! ## Octets -/

/-- For a type, a field of octets is read as one field only. -/
theorem Occurs.rightUnique (type : MessageType) : Relator.RightUnique (Occurs type) := by
  intro field occurrence occurrence' h h'
  have hboth := (h.reads []).symm.trans (h'.reads [])
  cases hboth
  rfl

/-- The fields of octets with a number, in their order. -/
def numbered (number : Nat) (fields : List Segment) : List Segment :=
  fields.filter fun field => field.number = number

/-- A place has one number only. -/
theorem numbered_of_indexOfNumber? {i number : Nat} (h : type.indexOfNumber? number = some i)
    (fields : List Segment) :
    (fields.filter fun field => type.indexOfNumber? field.number = some i)
      = numbered number fields := by
  refine List.filter_congr fun field _ => ?_
  rw [decide_eq_decide]
  constructor
  · intro hfield
    obtain ⟨f, hf, rfl⟩ := MessageType.exists_of_indexOfNumber? h
    obtain ⟨g, hg, hnumber⟩ := MessageType.exists_of_indexOfNumber? hfield
    rw [hf] at hg
    cases hg
    exact hnumber.symm
  · rintro rfl
    exact h

/-- Fields that stand in the same order for each number that a type knows stand in the same order
for each place. -/
theorem filter_place_of_numbered {fields fields' : List Segment}
    (hsame : ∀ number, type.indexOfNumber? number ≠ none →
      numbered number fields' = numbered number fields) (i : Nat) :
    (fields'.filter fun field => type.indexOfNumber? field.number = some i)
      = fields.filter fun field => type.indexOfNumber? field.number = some i := by
  by_cases hplace : ∃ number, type.indexOfNumber? number = some i
  · obtain ⟨number, hnumber⟩ := hplace
    rw [numbered_of_indexOfNumber? hnumber, numbered_of_indexOfNumber? hnumber]
    exact hsame number (by simp [hnumber])
  · rw [not_exists] at hplace
    simp [hplace]

/-- The fields that occur at a place are read from the fields of octets whose numbers lead there. -/
theorem forall₂_fieldsAt {fields : List Segment} {occurring : List Occurrence}
    (h : List.Forall₂ (Occurs type) fields occurring) (i : Nat) :
    List.Forall₂ (Occurs type)
      (fields.filter fun field => type.indexOfNumber? field.number = some i)
      (fieldsAt i occurring) := by
  refine List.rel_filter (fun field occurrence hoccurs => ?_) h
  simp [hoccurs.place?_eq]

/-- Where octets are accepted, their fields may be put together in any order that keeps, for each
number that the type knows, the order of the fields with this number; the record is the same. -/
theorem decode_reordered {bytes : Bytes} (h : decode registry type bytes = .ok record) :
    ∃ fields, segments bytes = .ok fields ∧ joined fields = bytes ∧
      ∀ reordered : List Segment, reordered.Perm fields →
        (∀ number, type.indexOfNumber? number ≠ none →
          numbered number reordered = numbered number fields) →
        decode registry type (joined reordered) = .ok record := by
  obtain ⟨hfault, hfold⟩ := foldFields_eq_ok_iff.1 h
  obtain ⟨fields, hfields, hoccurs⟩ := exists_occurs hfault
  obtain ⟨rfl, _⟩ := segments_eq_ok_iff.1 hfields
  refine ⟨fields, hfields, rfl, fun reordered hperm hsame => ?_⟩
  obtain ⟨occurring, hoccurs'⟩ : ∃ occurring, List.Forall₂ (Occurs type) reordered occurring := by
    refine exists_forall₂ fun field hfield => ?_
    obtain ⟨occurrence, _, hoccurs⟩ := exists_of_forall₂ hoccurs (hperm.mem_iff.1 hfield)
    exact ⟨occurrence, hoccurs⟩
  have hplaces : ∀ i, fieldsAt i occurring = fieldsAt i (occurrences type (joined fields)).1 := by
    intro i
    have hread := forall₂_fieldsAt hoccurs' i
    rw [filter_place_of_numbered hsame i] at hread
    exact List.right_unique_forall₂' (Occurs.rightUnique type) hread (forall₂_fieldsAt hoccurs i)
  exact (foldFields_joined hoccurs' _).trans (foldlM_reordered hfold hplaces)

/-- The label of the tree may stand between its children, and the group at the end. -/
theorem decode_reordered_groupedTree :
    decode (treeRegistry {}) treeType [18, 2, 8, 1, 8, 7, 18, 0, 43, 8, 1, 44]
      = .ok [some (.i32 7),
          some (.list [.message [some (.i32 1), some (.list []), some (.map [])],
            .message [some (.i32 0), some (.list []), some (.map [])]]),
          some (.map [])] := by
  obtain ⟨fields, hfields, _, hreordered⟩ := decode_reordered decode_groupedTree
  rw [segments_groupedTree] at hfields
  cases hfields
  refine hreordered [⟨2, [18, 2, 8, 1]⟩, ⟨1, [8, 7]⟩, ⟨2, [18, 0]⟩, ⟨5, [43, 8, 1, 44]⟩]
    (by decide) ?_
  intro number _
  by_cases hlabel : number = 1
  · subst hlabel
    rfl
  by_cases hgroup : number = 5
  · subst hgroup
    rfl
  · simp [numbered, List.filter_cons, Ne.symm hlabel, Ne.symm hgroup]

end DynProto.Binary
