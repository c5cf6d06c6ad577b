import DynProto.Plain.Reader
import DynProto.Proofs.Record.WellFormed
import DynProto.Proofs.Traversal

/-!
# Records read from plain objects are well-formed

Whatever the object is, and whether or not unknown keys are refused, a record that is read from it
is of its type throughout (`wellFormed_of_readLevels`). Each conversion gives a value of the kind
that it is for; the value of each member is of the sort that its field calls for and well-formed
inside, so setting its slot keeps the record well-formed.
-/

namespace DynProto.Plain

open Wire (except_bind_eq_ok)

variable {registry : Registry} {owner : String} {field : Field}

/-! ## Conversions -/

/-- The error of a field changes no result. -/
theorem ofField_eq_ok {α : Type} {result : Except PlainReason α} {a : α} :
    ofField owner field result = .ok a ↔ result = .ok a := by
  cases result <;> simp [ofField, Except.mapError]

/-- What is read for a scalar kind fits the kind. -/
theorem fits_of_readScalar {kind : Scalar} {json : Json} {v : Value}
    (h : readScalar kind json = .ok v) : v.fits kind = true := by
  cases kind
  case bool | string =>
    unfold readScalar at h
    simp only at h
    split at h <;> cases h
    rfl
  case float =>
    obtain ⟨word, _, h⟩ := except_bind_eq_ok.1 h
    obtain ⟨single, _, h⟩ := except_bind_eq_ok.1 h
    cases h
    rfl
  all_goals
    obtain ⟨_, _, rfl⟩ := except_map_eq_ok.1 h
    rfl

/-- What is read as a key of a kind fits the kind. -/
theorem fits_of_readKey {kind : Scalar} {key : String} {k : MapKey}
    (h : readKey kind key = .ok k) : k.toValue.fits kind = true := by
  unfold readKey at h
  split at h
  · split_ifs at h <;> cases h <;> rfl
  · cases h
    rfl
  · split at h
    · obtain ⟨v, hv, h⟩ := except_bind_eq_ok.1 h
      split at h
      · rename_i hk
        cases h
        rw [MapKey.toValue_of_ofValue? hk]
        exact fits_of_readScalar hv
      · cases h
    · cases h

/-! ## Fields -/

/-- A reader of nested messages that gives well-formed records. -/
def GivesWellFormed (registry : Registry) (nested : Nested) : Prop :=
  ∀ type json record, nested type json = .ok record → record.WellFormed registry type

/-- The messages that the value of a field holds are well-formed. -/
def WellFormedInside (registry : Registry) (kind : FieldKind) (v : Value) : Prop :=
  Record.Inside registry (Record.Shaped registry) kind v

variable {nested : Nested} {json : Json} {v : Value}

/-- The value of a map entry is of the right sort and well-formed inside. -/
theorem suits_of_readEntryValue (hnested : GivesWellFormed registry nested) {value : MapValue}
    (h : readEntryValue nested registry owner field value json = .ok v) :
    value.fieldKind.Suits registry v ∧ WellFormedInside registry value.fieldKind v := by
  rcases value with kind | name | name
  · have hfits := fits_of_readScalar (ofField_eq_ok.1 h)
    exact ⟨.scalar hfits, Record.inside_of_depth_eq_zero (Value.depth_of_fits hfits)⟩
  · obtain ⟨type, _, h⟩ := except_bind_eq_ok.1 h
    obtain ⟨n, _, h⟩ := except_bind_eq_ok.1 h
    cases h
    exact ⟨.enum, Record.inside_of_depth_eq_zero rfl⟩
  · obtain ⟨child, hchild, h⟩ := except_bind_eq_ok.1 h
    obtain ⟨inner, hinner, h⟩ := except_bind_eq_ok.1 h
    cases h
    exact ⟨.message hchild, Record.inside_message hchild (hnested _ _ _ hinner)⟩

/-- The entries of a map with a member of an object read on top. -/
def insertEntry (nested : Nested) (registry : Registry) (owner : String) (field : Field)
    (key : Scalar) (value : MapValue) (entries : OrderedMap MapKey Value)
    (member : String × Json) : Except CodecError (OrderedMap MapKey Value) := do
  let mapKey ← ofField owner field (readKey key member.1)
  let mapValue ← readEntryValue nested registry owner field value member.2
  .ok (entries.insert mapKey mapValue)

/-- The value of a map field is read member by member. -/
theorem readField_object {key : Scalar} {value : MapValue} (hkind : field.kind = .map key value)
    (members : List (String × Json)) :
    readField nested registry owner field (.object members)
      = (members.foldlM (insertEntry nested registry owner field key value) []).map .map := by
  rw [readField, hkind]
  rfl

/-- The entries of a map make a map of the right sort, well-formed inside. -/
theorem suits_of_readEntries (hnested : GivesWellFormed registry nested) {key : Scalar}
    {value : MapValue} {members : List (String × Json)} {entries : OrderedMap MapKey Value}
    (h : members.foldlM (insertEntry nested registry owner field key value) [] = .ok entries) :
    (FieldKind.map key value).Suits registry (.map entries) ∧
      WellFormedInside registry (.map key value) (.map entries) := by
  refine foldlM_preserves
    (fun entries => (FieldKind.map key value).Suits registry (.map entries) ∧
      WellFormedInside registry (.map key value) (.map entries)) ?_ ?_ h
  · rintro entries ⟨k, json⟩ next _ ⟨hsuits, hinside⟩ hnext
    obtain ⟨mapKey, hkey, hnext⟩ := except_bind_eq_ok.1 hnext
    obtain ⟨mapValue, hvalue, hnext⟩ := except_bind_eq_ok.1 hnext
    cases hnext
    obtain ⟨hsuits', hinside'⟩ := suits_of_readEntryValue hnested hvalue
    exact ⟨hsuits.insert (fits_of_readKey (ofField_eq_ok.1 hkey)) hsuits',
      hinside.insert hinside'⟩
  · exact ⟨.map List.Pairwise.nil (by simp) (by simp), Record.inside_of_depth_eq_zero rfl⟩

/-- The value of a field is of the sort that it calls for and well-formed inside. -/
theorem suits_of_readField (hnested : GivesWellFormed registry nested)
    (h : readField nested registry owner field json = .ok v) :
    field.kind.Suits registry v ∧ WellFormedInside registry field.kind v := by
  rcases hkind : field.kind with ⟨kind, _ | _⟩ | ⟨name, _ | _⟩ | ⟨name, _ | _⟩ | ⟨key, value⟩ <;>
    rw [readField, hkind] at h
  case scalar.false =>
    have hfits := fits_of_readScalar (ofField_eq_ok.1 h)
    exact ⟨.scalar hfits, Record.inside_of_depth_eq_zero (Value.depth_of_fits hfits)⟩
  case scalar.true =>
    obtain ⟨items, _, h⟩ := except_bind_eq_ok.1 h
    obtain ⟨vs, hvs, h⟩ := except_bind_eq_ok.1 h
    cases h
    have hfits : ∀ v ∈ vs, v.fits kind = true := by
      intro v hv
      obtain ⟨item, _, hitem⟩ := exists_of_forall₂ (mapM_eq_ok_iff.1 (ofField_eq_ok.1 hvs)).flip hv
      exact fits_of_readScalar hitem
    exact ⟨.scalars hfits, Record.inside_of_depth_eq_zero
      (Value.depth_list_eq_zero fun v hv => Value.depth_of_fits (hfits v hv))⟩
  case enum.false =>
    obtain ⟨type, _, h⟩ := except_bind_eq_ok.1 h
    obtain ⟨n, _, h⟩ := except_bind_eq_ok.1 h
    cases h
    exact ⟨.enum, Record.inside_of_depth_eq_zero rfl⟩
  case enum.true =>
    obtain ⟨type, _, h⟩ := except_bind_eq_ok.1 h
    obtain ⟨items, _, h⟩ := except_bind_eq_ok.1 h
    obtain ⟨numbers, _, h⟩ := except_bind_eq_ok.1 h
    cases h
    refine ⟨.enums (by simp), Record.inside_of_depth_eq_zero (Value.depth_list_eq_zero ?_)⟩
    intro v hv
    obtain ⟨n, _, rfl⟩ := List.mem_map.1 hv
    rfl
  case message.false =>
    obtain ⟨child, hchild, h⟩ := except_bind_eq_ok.1 h
    obtain ⟨inner, hinner, h⟩ := except_bind_eq_ok.1 h
    cases h
    exact ⟨.message hchild, Record.inside_message hchild (hnested _ _ _ hinner)⟩
  case message.true =>
    obtain ⟨child, hchild, h⟩ := except_bind_eq_ok.1 h
    obtain ⟨items, _, h⟩ := except_bind_eq_ok.1 h
    obtain ⟨records, hrecords, h⟩ := except_bind_eq_ok.1 h
    cases h
    constructor
    · refine .messages fun v hv => ?_
      obtain ⟨record, _, rfl⟩ := List.mem_map.1 hv
      exact ⟨record, child, rfl, hchild⟩
    · refine Record.inside_messages hchild fun record hrecord => ?_
      obtain ⟨item, _, hitem⟩ := exists_of_forall₂ (mapM_eq_ok_iff.1 hrecords).flip hrecord
      exact hnested _ _ _ hitem
  case map =>
    cases json
    case object members =>
      obtain ⟨entries, hentries, rfl⟩ := except_map_eq_ok.1 h
      exact suits_of_readEntries hnested hentries
    all_goals cases h

/-! ## Messages -/

/-- A member keeps a record well-formed. -/
theorem wellFormed_of_readMember (hnested : GivesWellFormed registry nested)
    {unknown : UnknownKeys} {type : MessageType} {record next : Record} {key : String}
    (h : record.WellFormed registry type)
    (hnext : readMember nested registry unknown type record key json = .ok next) :
    next.WellFormed registry type := by
  unfold readMember at hnext
  split at hnext
  · split at hnext <;> cases hnext
    exact h
  · rename_i index field hfield
    obtain ⟨i, _, hget⟩ := Option.bind_eq_some_iff.1 hfield
    obtain ⟨field', hget, heq⟩ := Option.map_eq_some_iff.1 hget
    cases heq
    split at hnext
    · cases hnext
      exact h
    · obtain ⟨v, hv, hnext⟩ := except_bind_eq_ok.1 hnext
      cases hnext
      obtain ⟨hsuits, hinside⟩ := suits_of_readField hnested hv
      exact Record.Throughout.set h hget (h.holds.set hget hsuits) hinside

/-- The default record is well-formed. -/
theorem wellFormed_defaultRecord (registry : Registry) (type : MessageType) :
    Record.WellFormed registry type type.defaultRecord :=
  Record.throughout_defaultRecord (Record.shaped_defaultRecord registry type)

/-- The members of an object give a well-formed record, on as many levels as there are. -/
theorem givesWellFormed_readLevels (registry : Registry) (unknown : UnknownKeys) (levels : Nat) :
    GivesWellFormed registry (readLevels registry unknown levels) := by
  induction levels with
  | zero => exact fun _ _ _ h => nomatch h
  | succ levels ih =>
    intro type json record h
    unfold readLevels readObject at h
    split at h
    · exact foldlM_preserves (Record.WellFormed registry type)
        (fun _ _ _ _ hrecord hstep => wellFormed_of_readMember ih hrecord hstep)
        (wellFormed_defaultRecord registry type) h
    · cases h

/-- A record that is read from a value is well-formed. -/
theorem wellFormed_of_read {unknown : UnknownKeys} {type : MessageType} {record : Record}
    (h : read registry unknown type json = .ok record) : record.WellFormed registry type :=
  givesWellFormed_readLevels registry unknown _ _ _ _ h

/-- So is one that is created from values. -/
theorem wellFormed_of_create {type : MessageType} {values : Option Json} {record : Record}
    (h : create registry type values = .ok record) : record.WellFormed registry type := by
  unfold create at h
  split at h
  · cases h
    exact wellFormed_defaultRecord registry type
  · cases h
    exact wellFormed_defaultRecord registry type
  · exact wellFormed_of_read h

end DynProto.Plain
