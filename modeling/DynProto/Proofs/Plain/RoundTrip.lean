import DynProto.Plain.Reader
import DynProto.Plain.Writer
import DynProto.Proofs.Binary.RoundTrip
import DynProto.Proofs.OrderedMap
import DynProto.Proofs.Plain.Conversion
import DynProto.Proofs.Plain.WellFormed

/-!
# Plain objects and octets stand for the same record

A record that can be written in binary can be written as a plain object, and both are read as the
same record, or refused with the same error for the limit (`decode_write`). Field by field: the JSON
value of a field denotes the canonical value (`shownValue_of_piece`), where the messages inside are
read on the level below. The members of an object are in the order of their keys, not in that of the
fields, but each sets a slot of its own, so the order does not matter (`foldlM_ofList`).
-/

namespace DynProto.Plain

open Wire (except_bind_eq_ok)

variable {registry : Registry} {unknown : UnknownKeys} {owner : String} {field : Field}

/-! ## What both forms can hold -/

/-- A record holds no not-a-number, and its maps are in the order of their keys. -/
structure Exact (record : Record) : Prop where
  /-- No value is a not-a-number. -/
  isNaN_eq : ∀ v, record.Contains v → v.isNaN = false
  /-- The entries of every map ascend by key, as those of a map do. -/
  ordered : ∀ entries, record.Contains (.map entries) → OrderedMap.Ordered entries

/-- The messages inside are of this sort as well. -/
theorem Exact.inner {record slots : Record} (h : Exact record)
    (hmessage : record.Contains (.message slots)) : Exact slots where
  isNaN_eq v hv := h.isNaN_eq v (hmessage.trans hv)
  ordered entries hentries := h.ordered entries (hmessage.trans hentries)

/-! ## What a JSON value denotes -/

/-- A JSON value is read as a record where messages may be nested on enough levels, and is refused
otherwise. -/
def DenotesRecord (registry : Registry) (unknown : UnknownKeys) (type : MessageType) (json : Json)
    (record : Record) : Prop :=
  ∀ levels, readLevels registry unknown levels type json
    = if record.depth < levels then .ok (registry.canonical type record)
      else .error (.recursionLimit registry.options.recursionLimit)

/-- A JSON value is read as the value of a field where messages may be nested on enough levels, and
is refused otherwise. -/
def DenotesValue (registry : Registry) (unknown : UnknownKeys) (owner : String) (field : Field)
    (json : Json) (v : Value) : Prop :=
  ∀ levels, readField (readLevels registry unknown levels) registry owner field json
    = if v.depth ≤ levels then .ok (registry.canonicalValue field.kind v)
      else .error (.recursionLimit registry.options.recursionLimit)

/-- A record is written, and what is written denotes it. -/
def Shown (registry : Registry) (unknown : UnknownKeys) (type : MessageType) (record : Record) :
    Prop :=
  ∃ json, write registry type record = .ok json ∧
    DenotesRecord registry unknown type json record

/-- The value of a field is written, not as null, and what is written denotes it. -/
def ShownValue (registry : Registry) (unknown : UnknownKeys) (owner : String) (field : Field)
    (v : Value) : Prop :=
  ∃ json, writeField registry owner field v = .ok json ∧ json ≠ .null ∧
    DenotesValue registry unknown owner field json v

/-- A value without messages inside is read as such on all levels. -/
theorem denotesValue_of_depth_eq_zero {json : Json} {v : Value} (hdepth : v.depth = 0)
    (h : ∀ nested : Nested, readField nested registry owner field json
      = .ok (registry.canonicalValue field.kind v)) :
    DenotesValue registry unknown owner field json v := by
  intro levels
  rw [h, Binary.ok_of_depth_eq_zero hdepth]

/-- What a record is written as, put into a value by a function. -/
theorem DenotesRecord.map {type : MessageType} {json : Json} {record : Record} {α : Type}
    (h : DenotesRecord registry unknown type json record) (levels : Nat) (f : Record → α) :
    (readLevels registry unknown levels type json).map f
      = if (Value.message record).depth ≤ levels then .ok (f (registry.canonical type record))
        else .error (.recursionLimit registry.options.recursionLimit) := by
  rw [h levels, Record.map_guarded]

/-! ## What is written is not null -/

/-- The JSON value of a value is not null. -/
theorem ne_null_of_writeValue {v : Value} {json : Json} (h : writeValue v = .ok json) :
    json ≠ .null := by
  rintro rfl
  cases v
  case f32 word | f64 word =>
    have hnull := Except.ok.inj h
    unfold writeDouble at hnull
    split_ifs at hnull
  case list elements =>
    rw [writeValue] at h
    obtain ⟨items, _, h⟩ := except_bind_eq_ok.1 h
    cases h
  all_goals cases h

/-- The plain object of a record is not null. -/
theorem ne_null_of_write {type : MessageType} {record : Record} {json : Json}
    (h : write registry type record = .ok json) : json ≠ .null := by
  unfold write objectOf at h
  split_ifs at h
  obtain ⟨members, _, h⟩ := except_bind_eq_ok.1 h
  cases h
  simp

/-! ## Members of objects -/

/-- The members of an object are gone through in the order of their keys. If each stands for
something that changes the state, or stops with one error, then all of them change it, in some
order, or the run stops with this error. -/
theorem foldlM_ofList {α σ : Type} {step : σ → String × Json → Except CodecError σ} {as : List α}
    {members : List (String × Json)} {ok : α → Prop} [DecidablePred ok] {change : σ → α → σ}
    {error : CodecError}
    (h : List.Forall₂ (fun a member => ∀ s, step s member
      = if ok a then .ok (change s a) else .error error) as members)
    (hkeys : (members.map Prod.fst).Nodup) (s : σ) :
    ∃ as' : List α, as'.Perm as ∧ (OrderedMap.ofList members).foldlM step s
      = if ∀ a ∈ as, ok a then .ok (as'.foldl change s) else .error error := by
  have hperm : (OrderedMap.ofList members).Perm members := OrderedMap.ofList_perm hkeys
  obtain ⟨as', h', hperm'⟩ := List.perm_comp_forall₂ hperm h.flip
  refine ⟨as', hperm', ?_⟩
  rw [foldlM_guarded h'.flip]
  simp only [hperm'.mem_iff]

/-- The slots that hold values are written as members, each under the plain key of its field. -/
theorem exists_members {fields : List Field} {keys : List String} {slots : Record}
    {R : Nat → String × Json → Prop} (hkeys : keys.length = fields.length)
    (hslots : slots.length ≤ fields.length)
    (h : ∀ (i : Nat) (field : Field) (key : String) (v : Value), fields[i]? = some field →
      keys[i]? = some key → slots.value? i = some v →
      ∃ json, writeField registry owner field v = .ok json ∧ R i (key, json)) :
    ∃ members, writeSlots registry owner fields keys slots = .ok members ∧
      List.Forall₂ R slots.places members := by
  induction slots generalizing fields keys R with
  | nil =>
    refine ⟨[], ?_, .nil⟩
    cases fields <;> cases keys <;> rfl
  | cons slot slots ih =>
    rcases fields with _ | ⟨field, fields⟩
    · cases hslots
    rcases keys with _ | ⟨key, keys⟩
    · cases hkeys
    obtain ⟨members, hmembers, hR⟩ := ih (R := fun i => R (i + 1)) (Nat.succ.inj hkeys)
      (Nat.le_of_succ_le_succ hslots) fun i field key v hfield hkey hv =>
        h (i + 1) field key v hfield hkey hv
    cases slot with
    | none =>
      rw [Record.places_none]
      exact ⟨members, hmembers, List.forall₂_map_left_iff.2 hR⟩
    | some v =>
      obtain ⟨json, hjson, hfirst⟩ := h 0 field key v rfl rfl rfl
      rw [Record.places_some]
      refine ⟨(key, json) :: members, ?_, .cons hfirst (List.forall₂_map_left_iff.2 hR)⟩
      rw [writeSlots]
      exact except_bind_eq_ok.2 ⟨json, hjson, except_bind_eq_ok.2 ⟨members, hmembers, rfl⟩⟩

/-! ## Lists -/

/-- Writing a list goes through its elements. -/
theorem writeValues_eq_mapM (vs : List Value) : writeValues vs = vs.mapM writeValue := by
  induction vs with
  | nil => rfl
  | cons v vs ih =>
    rw [writeValues, List.mapM_cons, ih]
    rfl

/-- The elements of a list of scalars or enum numbers are written and read one by one. -/
theorem exists_items {α : Type} {readItem : Json → Except PlainReason α} {vs : List Value}
    {results : List α}
    (h : List.Forall₂ (fun v result => ∃ json, writeValue v = .ok json ∧ readItem json = .ok result)
      vs results) :
    ∃ items, writeValue (.list vs) = .ok (.array items) ∧ items.mapM readItem = .ok results := by
  have hitems : ∃ items, writeValues vs = .ok items ∧ items.mapM readItem = .ok results := by
    induction h with
    | nil => exact ⟨[], rfl, rfl⟩
    | cons hfirst _ ih =>
      obtain ⟨json, hjson, hread⟩ := hfirst
      obtain ⟨items, hitems, hreads⟩ := ih
      refine ⟨json :: items, ?_, ?_⟩
      · rw [writeValues]
        exact except_bind_eq_ok.2 ⟨json, hjson, except_bind_eq_ok.2 ⟨items, hitems, rfl⟩⟩
      · rw [List.mapM_cons, hread, hreads]
        rfl
  obtain ⟨items, hitems, hreads⟩ := hitems
  refine ⟨items, ?_, hreads⟩
  rw [writeValue, hitems]
  rfl

/-- The messages of a repeated field are written and read one by one. -/
theorem exists_messages (owner : String) (field : Field) {child : MessageType}
    {records : List Record} (h : ∀ slots ∈ records, Shown registry unknown child slots) :
    ∃ items, writeMessages registry owner field child (records.map .message) = .ok items ∧
      ∀ levels, items.mapM (readLevels registry unknown levels child)
        = if ∀ slots ∈ records, slots.depth < levels then
            .ok (records.map (registry.canonical child))
          else .error (.recursionLimit registry.options.recursionLimit) := by
  obtain ⟨items, hitems⟩ := exists_forall₂ h
  refine ⟨items, ?_, fun levels =>
    mapM_guarded (hitems.imp fun slots json hshown => hshown.2 levels)⟩
  induction hitems with
  | nil => rfl
  | @cons slots json records items hshown _ ih =>
    have hrest := ih fun slots hslots => h slots (List.mem_cons_of_mem _ hslots)
    rw [List.map_cons, writeMessages]
    exact except_bind_eq_ok.2 ⟨json, hshown.1, except_bind_eq_ok.2 ⟨items, hrest, rfl⟩⟩

/-! ## Maps -/

/-- A JSON value is read as the value of a map entry where messages may be nested on enough levels,
and is refused otherwise. -/
def DenotesEntry (registry : Registry) (unknown : UnknownKeys) (owner : String) (field : Field)
    (value : MapValue) (json : Json) (v : Value) : Prop :=
  ∀ levels, readEntryValue (readLevels registry unknown levels) registry owner field value json
    = if v.depth ≤ levels then .ok (registry.canonicalValue value.fieldKind v)
      else .error (.recursionLimit registry.options.recursionLimit)

/-- Writing a map goes through its entries. -/
theorem writeEntries_eq_mapM (registry : Registry) (owner : String) (field : Field)
    (child? : Option MessageType) (entries : List (MapKey × Value)) :
    writeEntries registry owner field child? entries = entries.mapM fun entry =>
      (writeEntry registry owner field child? entry.2).map fun json => (entry.1.text, json) := by
  induction entries with
  | nil => rfl
  | cons entry entries ih =>
    rw [writeEntries, List.mapM_cons, ih]
    rcases writeEntry registry owner field child? entry.2 with error | json <;> rfl

/-- The entries of a map are written one by one, each under the text of its key. -/
theorem exists_entries {child? : Option MessageType} {entries : List (MapKey × Value)}
    {R : MapKey × Value → String × Json → Prop}
    (h : ∀ entry ∈ entries, ∃ json,
      writeEntry registry owner field child? entry.2 = .ok json ∧ R entry (entry.1.text, json)) :
    ∃ members, writeEntries registry owner field child? entries = .ok members ∧
      List.Forall₂ R entries members := by
  induction entries with
  | nil => exact ⟨[], rfl, .nil⟩
  | cons entry entries ih =>
    obtain ⟨k, v⟩ := entry
    obtain ⟨json, hjson, hR⟩ := h (k, v) List.mem_cons_self
    obtain ⟨members, hmembers, hrest⟩ := ih fun entry hentry =>
      h entry (List.mem_cons_of_mem _ hentry)
    refine ⟨(k.text, json) :: members, ?_, .cons hR hrest⟩
    rw [writeEntries]
    exact except_bind_eq_ok.2 ⟨json, hjson, except_bind_eq_ok.2 ⟨members, hmembers, rfl⟩⟩

/-- What is written by itself is written so in an entry as well. -/
theorem writeEntry_of_writeValue {v : Value} {json : Json} (h : writeValue v = .ok json)
    (child? : Option MessageType) : writeEntry registry owner field child? v = .ok json := by
  rw [writeEntry.eq_def]
  cases v
  case message slots => cases h
  all_goals cases child? <;> exact ofField_eq_ok.2 h

/-- The writer of a map field goes through the entries with the type of the messages, if the values
are messages, and each value is written as what denotes it. -/
theorem exists_entryType (unknown : UnknownKeys) (owner : String) {key : Scalar} {value : MapValue}
    (hkind : field.kind = .map key value) (hlinked : value.Linked registry) :
    ∃ child?, (∀ entries members,
        writeEntries registry owner field child? entries = .ok members →
        writeField registry owner field (.map entries)
          = .ok (.object (OrderedMap.ofList members))) ∧
      ∀ v bytes, Binary.ValuePiece registry value v bytes → v.isNaN = false →
        (∀ name slots child, value.fieldKind.Holds v name slots →
          registry.codecMessageType name = .ok child → Shown registry unknown child slots) →
        ∃ json, writeEntry registry owner field child? v = .ok json ∧
          DenotesEntry registry unknown owner field value json v := by
  rcases value with kind | name | name
  case scalar =>
    refine ⟨none, fun entries members hmembers => ?_, fun v bytes hpiece hnan _ => ?_⟩
    · rw [writeField.eq_def, hkind]
      exact except_bind_eq_ok.2 ⟨members, hmembers, rfl⟩
    · rcases hpiece with @⟨kind, v, content, hcontent⟩
      have hfits := Binary.fits_of_content hcontent
      obtain ⟨json, hjson, hread⟩ := exists_json_of_fits hfits hnan
      refine ⟨json, writeEntry_of_writeValue hjson none, fun levels => ?_⟩
      rw [Binary.ok_of_depth_eq_zero (Value.depth_of_fits hfits), MapValue.fieldKind,
        Registry.canonicalValue_scalar]
      exact ofField_eq_ok.2 hread
  case enum =>
    obtain ⟨type, htype⟩ := hlinked
    refine ⟨none, fun entries members hmembers => ?_, fun v bytes hpiece _ _ => ?_⟩
    · rw [writeField.eq_def, hkind]
      exact except_bind_eq_ok.2 ⟨members, hmembers, rfl⟩
    · obtain ⟨n, hn⟩ : ∃ n, v.asEnum = .enum n := by
        cases hpiece
        exact ⟨_, by assumption⟩
      obtain ⟨json, hjson, hread⟩ := exists_json_of_asEnum type hn
      refine ⟨json, writeEntry_of_writeValue hjson none, fun levels => ?_⟩
      rw [Binary.ok_of_depth_eq_zero (Value.depth_of_asEnum hn), MapValue.fieldKind,
        Registry.canonicalValue, hn]
      exact except_bind_eq_ok.2 ⟨type, htype, except_bind_eq_ok.2
        ⟨n, ofField_eq_ok.2 hread, rfl⟩⟩
  case message =>
    obtain ⟨child, hchild⟩ := hlinked
    refine ⟨some child, fun entries members hmembers => ?_, fun v bytes hpiece _ hinner => ?_⟩
    · rw [writeField.eq_def, hkind]
      exact except_bind_eq_ok.2 ⟨child, hchild, except_bind_eq_ok.2 ⟨members, hmembers, rfl⟩⟩
    · obtain ⟨slots, rfl⟩ : ∃ slots, v = .message slots := by
        cases hpiece
        exact ⟨_, rfl⟩
      obtain ⟨json, hjson, hdenotes⟩ := hinner name slots child .single hchild
      refine ⟨json, ?_, fun levels => ?_⟩
      · rw [writeEntry.eq_def]
        exact hjson
      · rw [MapValue.fieldKind, Registry.canonicalValue_message hchild,
          ← hdenotes.map levels Value.message, readEntryValue, hchild]
        rfl

/-- A member that denotes an entry inserts it, where messages may be nested on enough levels. -/
theorem insertEntry_of_denotesEntry {key : Scalar} {value : MapValue} {entry : MapKey × Value}
    {member : String × Json} (hkey : readKey key member.1 = .ok entry.1)
    (hvalue : DenotesEntry registry unknown owner field value member.2 entry.2) (levels : Nat)
    (entries : OrderedMap MapKey Value) :
    insertEntry (readLevels registry unknown levels) registry owner field key value entries member
      = if entry.2.depth ≤ levels then
          .ok (entries.insert entry.1 (registry.canonicalValue value.fieldKind entry.2))
        else .error (.recursionLimit registry.options.recursionLimit) := by
  unfold insertEntry
  rw [ofField_eq_ok.2 hkey, hvalue levels]
  split_ifs <;> rfl

/-- Members that denote the entries of a map are read as its entries, whatever their order. -/
theorem denotesValue_of_entries {key : Scalar} {value : MapValue}
    (hkind : field.kind = .map key value) {entries : List (MapKey × Value)}
    {members : List (String × Json)}
    (h : List.Forall₂ (fun entry member => readKey key member.1 = .ok entry.1 ∧
      DenotesEntry registry unknown owner field value member.2 entry.2) entries members)
    (hordered : OrderedMap.Ordered entries) :
    DenotesValue registry unknown owner field (.object (OrderedMap.ofList members))
      (.map entries) := by
  intro levels
  have hkeys : (members.map Prod.fst).Nodup := by
    refine nodup_of_forall₂ h hordered.nodup ?_
    rintro entry entry' member member' ⟨hkey, _⟩ ⟨hkey', _⟩ heq
    rw [heq, hkey'] at hkey
    exact (Except.ok.inj hkey).symm
  have hsteps : List.Forall₂ (fun entry member => ∀ map : OrderedMap MapKey Value,
      insertEntry (readLevels registry unknown levels) registry owner field key value map member
      = if entry.2.depth ≤ levels then
          .ok (map.insert entry.1 (registry.canonicalValue value.fieldKind entry.2))
        else .error (.recursionLimit registry.options.recursionLimit)) entries members :=
    h.imp fun entry member hmember => insertEntry_of_denotesEntry hmember.1 hmember.2 levels
  obtain ⟨entries', hperm, hfold⟩ := foldlM_ofList hsteps hkeys []
  have hcanonical : entries'.foldl (fun (map : OrderedMap MapKey Value) entry =>
      map.insert entry.1 (registry.canonicalValue value.fieldKind entry.2)) []
      = OrderedMap.ofList (registry.canonicalEntries value entries) := by
    have hkeys : ((entries.map fun entry =>
        (entry.1, registry.canonicalValue value.fieldKind entry.2)).map Prod.fst).Nodup := by
      rw [List.map_map]
      exact hordered.nodup
    rw [Registry.canonicalEntries_eq_map, ← OrderedMap.ofList_eq_of_perm (hperm.map _) hkeys,
      OrderedMap.ofList, List.foldl_map]
  have hdepth : (∀ entry ∈ entries, entry.2.depth ≤ levels) ↔ (Value.map entries).depth ≤ levels :=
    Value.entriesDepth_le_iff.symm
  rw [hcanonical] at hfold
  simp only [hdepth] at hfold
  rw [readField_object hkind, hfold, hkind, Registry.canonicalValue]
  split_ifs <;> rfl

/-- The value of a map field is written as an object of its entries. -/
theorem shownValue_of_map {key : Scalar} {value : MapValue} (hkind : field.kind = .map key value)
    (hlinked : value.Linked registry) {entries : List (MapKey × Value)} {bodies : List Bytes}
    (hbodies : List.Forall₂ (Binary.EntryPiece registry key value) entries bodies)
    (hordered : OrderedMap.Ordered entries) (hnan : ∀ entry ∈ entries, entry.2.isNaN = false)
    (hinner : ∀ name slots child, (FieldKind.map key value).Holds (.map entries) name slots →
      registry.codecMessageType name = .ok child → Shown registry unknown child slots) :
    ShownValue registry unknown owner field (.map entries) := by
  obtain ⟨child?, hwrite, hvalue⟩ :=
    exists_entryType unknown owner hkind hlinked
  have hentries : ∀ entry ∈ entries, ∃ json,
      writeEntry registry owner field child? entry.2 = .ok json ∧
        readKey key entry.1.text = .ok entry.1 ∧
        DenotesEntry registry unknown owner field value json entry.2 := by
    intro entry hentry
    obtain ⟨body, _, hbody⟩ := exists_of_forall₂ hbodies hentry
    rcases hbody with ⟨hkey, hpiece⟩
    obtain ⟨json, hjson, hdenotes⟩ := hvalue _ _ hpiece (hnan _ hentry)
      fun name slots child hholds => hinner name slots child (hholds.of_entry hentry)
    exact ⟨json, hjson, readKey_text (Binary.fits_of_content hkey), hdenotes⟩
  obtain ⟨members, hmembers, h⟩ := exists_entries (R := fun entry member =>
    readKey key member.1 = .ok entry.1 ∧
      DenotesEntry registry unknown owner field value member.2 entry.2) hentries
  exact ⟨_, hwrite entries members hmembers, by simp, denotesValue_of_entries hkind h hordered⟩

/-! ## Fields -/

/-- The value of a field of a scalar or enum kind is written by what it is. -/
theorem writeField_of_writeValue {v : Value} {json : Json} (h : writeValue v = .ok json)
    (hkind : (∃ kind repeated, field.kind = .scalar kind repeated) ∨
      ∃ name repeated, field.kind = .enum name repeated) :
    writeField registry owner field v = .ok json := by
  rw [writeField.eq_def]
  rcases hkind with ⟨kind, repeated, hkind⟩ | ⟨name, repeated, hkind⟩ <;> rw [hkind] <;>
    exact ofField_eq_ok.2 h

/-- The value of a repeated scalar field is written as an array. -/
theorem shownValue_of_scalars {kind : Scalar} (hkind : field.kind = .scalar kind true)
    {vs : List Value} (hfits : ∀ v ∈ vs, v.fits kind = true) (hnan : ∀ v ∈ vs, v.isNaN = false) :
    ShownValue registry unknown owner field (.list vs) := by
  have hitems : List.Forall₂ (fun v result => ∃ json, writeValue v = .ok json ∧
      readScalar kind json = .ok result) vs vs :=
    List.forall₂_same.2 fun v hv => exists_json_of_fits (hfits v hv) (hnan v hv)
  obtain ⟨items, hjson, hread⟩ := exists_items hitems
  refine ⟨_, writeField_of_writeValue hjson (.inl ⟨_, _, hkind⟩), by simp, ?_⟩
  refine denotesValue_of_depth_eq_zero
    (Value.depth_list_eq_zero fun v hv => Value.depth_of_fits (hfits v hv)) fun nested => ?_
  rw [readField, hkind, Registry.canonicalValue_scalar]
  exact except_bind_eq_ok.2 ⟨items, rfl, except_bind_eq_ok.2 ⟨vs, ofField_eq_ok.2 hread, rfl⟩⟩

/-- The value of a repeated enum field is written as an array. -/
theorem shownValue_of_enums {name : String} (hkind : field.kind = .enum name true)
    {type : EnumType} (htype : registry.codecEnumType name = .ok type) {vs : List Value}
    {numbers : List Int32} (hnumbers : List.Forall₂ (fun v n => v.asEnum = .enum n) vs numbers) :
    ShownValue registry unknown owner field (.list vs) := by
  obtain ⟨items, hjson, hread⟩ :=
    exists_items (hnumbers.imp fun v n hn => exists_json_of_asEnum type hn)
  refine ⟨_, writeField_of_writeValue hjson (.inr ⟨_, _, hkind⟩), by simp,
    denotesValue_of_depth_eq_zero (Value.depth_of_asEnums hnumbers) fun nested => ?_⟩
  rw [readField, hkind, registry.canonicalValue_enums hnumbers]
  exact except_bind_eq_ok.2 ⟨type, htype, except_bind_eq_ok.2 ⟨items, rfl,
    except_bind_eq_ok.2 ⟨numbers, ofField_eq_ok.2 hread, rfl⟩⟩⟩

/-- The value of a repeated message field is written as an array. -/
theorem shownValue_of_messages {name : String} (hkind : field.kind = .message name true)
    {child : MessageType} (hchild : registry.codecMessageType name = .ok child)
    {records : List Record} (h : ∀ slots ∈ records, Shown registry unknown child slots) :
    ShownValue registry unknown owner field (.list (records.map .message)) := by
  obtain ⟨items, hitems, hread⟩ := exists_messages owner field h
  refine ⟨.array items, ?_, by simp, fun levels => ?_⟩
  · rw [writeField.eq_def, hkind]
    exact except_bind_eq_ok.2 ⟨child, hchild, except_bind_eq_ok.2 ⟨items, hitems, rfl⟩⟩
  · have hdepth : (∀ slots ∈ records, slots.depth < levels)
        ↔ (Value.list (records.map .message)).depth ≤ levels := by
      show _ ↔ Value.elementsDepth _ ≤ levels
      rw [Value.elementsDepth_le_iff, List.forall_mem_map]
      rfl
    have hvalues : (records.map .message).map (registry.canonicalValue (.message name false))
        = (records.map (registry.canonical child)).map .message := by
      rw [List.map_map, List.map_map]
      exact List.map_congr_left fun slots _ => Registry.canonicalValue_message hchild slots
    have hread := hread levels
    simp only [hdepth] at hread
    rw [readField, hkind, Registry.canonicalValue, Registry.canonicalElements_eq_map, hvalues]
    show (registry.codecMessageType name >>= fun _ => _) = _
    rw [hchild]
    show ((items.mapM _ : Except CodecError (List Record)) >>= fun _ => _) = _
    rw [hread]
    split_ifs <;> rfl

/-- The value of a field that is written in binary is written as a JSON value that denotes it. -/
theorem shownValue_of_piece (unknown : UnknownKeys) (hlinked : field.kind.Linked registry)
    {number : Nat} {v : Value} {bytes : Bytes}
    (hpiece : Binary.Piece registry number field.kind v bytes) {record : Record}
    (hexact : Exact record) (hv : record.Contains v)
    (hinner : ∀ name slots child, field.kind.Holds v name slots →
      registry.codecMessageType name = .ok child → Shown registry unknown child slots) :
    ShownValue registry unknown owner field v := by
  generalize hkind : field.kind = kind at hlinked hpiece hinner
  rcases hpiece with @⟨kind, v, content, hcontent⟩ | @⟨kind, vs, contents, _, hcontents⟩ |
    @⟨kind, vs, contents, _, hcontents⟩ | @⟨name, v, n, hn⟩ | @⟨name, vs, numbers, hnumbers⟩ |
    @⟨name, child, slots, body, hchild, hbody⟩ | @⟨name⟩ |
    @⟨name, child, vs, bodies, hchild, hbodies⟩ | @⟨key, value, entries, bodies, hbodies⟩
  case scalar =>
    have hfits := Binary.fits_of_content hcontent
    obtain ⟨json, hjson, hread⟩ := exists_json_of_fits hfits (hexact.isNaN_eq v hv)
    refine ⟨json, writeField_of_writeValue hjson (.inl ⟨_, _, hkind⟩), ne_null_of_writeValue hjson,
      denotesValue_of_depth_eq_zero (Value.depth_of_fits hfits) fun nested => ?_⟩
    rw [readField, hkind, Registry.canonicalValue_scalar]
    exact ofField_eq_ok.2 hread
  case packed | unpacked =>
    exact shownValue_of_scalars hkind (Binary.fits_of_contents hcontents)
      fun v hmem => hexact.isNaN_eq v (.element hv hmem)
  case enum =>
    obtain ⟨type, htype⟩ := hlinked
    obtain ⟨json, hjson, hread⟩ := exists_json_of_asEnum type hn
    refine ⟨json, writeField_of_writeValue hjson (.inr ⟨_, _, hkind⟩), ne_null_of_writeValue hjson,
      denotesValue_of_depth_eq_zero (Value.depth_of_asEnum hn) fun nested => ?_⟩
    rw [readField, hkind, Registry.canonicalValue, hn]
    exact except_bind_eq_ok.2 ⟨type, htype, except_bind_eq_ok.2 ⟨n, ofField_eq_ok.2 hread, rfl⟩⟩
  case enums =>
    obtain ⟨type, htype⟩ := hlinked
    exact shownValue_of_enums hkind htype hnumbers
  case message =>
    obtain ⟨json, hjson, hdenotes⟩ := hinner name slots child .single hchild
    refine ⟨json, ?_, ne_null_of_write hjson, fun levels => ?_⟩
    · rw [writeField.eq_def, hkind]
      exact except_bind_eq_ok.2 ⟨child, hchild, hjson⟩
    · rw [readField, hkind, Registry.canonicalValue_message hchild,
        ← hdenotes.map levels Value.message]
      show (registry.codecMessageType name >>= fun _ => _) = _
      rw [hchild]
      rfl
  case noMessages =>
    obtain ⟨child, hchild⟩ := hlinked
    have hnone : ∀ slots ∈ ([] : List Record), Shown registry unknown child slots := by simp
    exact shownValue_of_messages hkind hchild hnone
  case messages =>
    have hmessages : ∀ v ∈ vs, ∃ slots, v = .message slots := by
      intro v hmem
      obtain ⟨body, _, slots, hslots, _⟩ := exists_of_forall₂ hbodies hmem
      exact ⟨slots, hslots⟩
    obtain ⟨records, hrecords⟩ := exists_forall₂ hmessages
    obtain rfl : vs = records.map .message := by
      rw [← List.forall₂_eq_eq_eq, List.forall₂_map_right_iff]
      exact hrecords
    refine shownValue_of_messages hkind hchild fun slots hslots => ?_
    exact hinner name slots child (.element (List.mem_map_of_mem hslots)) hchild
  case map =>
    exact shownValue_of_map hkind hlinked hbodies (hexact.ordered entries hv)
      (fun entry hentry => hexact.isNaN_eq _ (.entry hv hentry)) hinner

/-! ## Messages -/

variable {type : MessageType} {record : Record}

/-- A member of an object names a field and denotes the value in its slot. -/
inductive DenotesSlot (registry : Registry) (unknown : UnknownKeys) (type : MessageType)
    (record : Record) : Nat → String × Json → Prop
  /-- The key leads to the place of the field, and the JSON value denotes the value. -/
  | intro {i : Nat} {field : Field} {key : String} {json : Json} {v : Value}
    (hfield : type.fields[i]? = some field) (hv : record.value? i = some v)
    (hkey : type.indexOf? key = some i) (hnull : json ≠ .null)
    (hdenotes : DenotesValue registry unknown type.name field json v) :
    DenotesSlot registry unknown type record i (key, json)

/-- The key of a member that denotes the value in a slot leads to the slot. -/
theorem DenotesSlot.indexOf?_eq {i : Nat} {member : String × Json}
    (h : DenotesSlot registry unknown type record i member) :
    type.indexOf? member.1 = some i := by
  rcases h with ⟨_, _, hkey, _, _⟩
  exact hkey

/-- A member sets the slot whose value it denotes, where messages may be nested on enough levels. -/
theorem readMember_of_denotesSlot {i : Nat} {member : String × Json}
    (h : DenotesSlot registry unknown type record i member) (levels : Nat) (filled : Record) :
    readMember (readLevels registry unknown levels) registry unknown type filled member.1 member.2
      = if record.depthAt i ≤ levels then
          .ok (filled.set i ((type.fields[i]?).bind fun field =>
            registry.canonicalSlot field.kind (record.value? i)))
        else .error (.recursionLimit registry.options.recursionLimit) := by
  rcases h with @⟨field, key, json, v, hfield, hv, hkey, hnull, hdenotes⟩
  have hdepth : record.depthAt i = v.depth := by
    rw [Record.depthAt, hv]
    rfl
  unfold readMember
  simp only [hkey, Option.bind_some, hfield, Option.map_some, hv, hdepth]
  rw [hdenotes levels]
  split_ifs <;> rfl

/-- An object with a member for each slot that holds a value denotes the record. -/
theorem denotesRecord_of_members {members : List (String × Json)}
    (h : List.Forall₂ (DenotesSlot registry unknown type record) record.places members) :
    DenotesRecord registry unknown type (.object (OrderedMap.ofList members)) record := by
  intro levels
  cases levels with
  | zero =>
    rw [if_neg (Nat.not_lt_zero _)]
    rfl
  | succ levels =>
    have hkeys : (members.map Prod.fst).Nodup := by
      have hnodup : (record.places.map id).Nodup := by
        rw [List.map_id]
        exact record.nodup_places
      refine nodup_of_forall₂ h hnodup ?_
      intro i i' member member' hmember hmember' heq
      have hkey := hmember.indexOf?_eq
      rw [heq, hmember'.indexOf?_eq] at hkey
      exact (Option.some.inj hkey).symm
    obtain ⟨order, hperm, hfold⟩ := foldlM_ofList
      (h.imp fun i member hmember => readMember_of_denotesSlot hmember levels) hkeys
      type.defaultRecord
    have hmem : ∀ i field v, type.fields[i]? = some field → record.value? i = some v → i ∈ order :=
      fun i _ v _ hv => hperm.mem_iff.2 (Record.mem_places.2 ⟨v, hv⟩)
    have hcanonical := registry.foldl_set_canonicalSlot type record hmem
    rw [hcanonical] at hfold
    have hdepth : (∀ i ∈ record.places, record.depthAt i ≤ levels) ↔ record.depth < levels + 1 :=
      Record.depth_le_iff_places.symm.trans Nat.lt_succ_iff.symm
    simp only [hdepth] at hfold
    exact hfold

/-- What is written in binary is written as a plain object that denotes the record. -/
theorem shown_of_encode (unknown : UnknownKeys) (hlinked : registry.Linked)
    (hkeyed : registry.PlainKeyed) {name : String}
    (htype : registry.messageType name = .ok type) (hexact : Exact record) {bytes : Bytes}
    (hbytes : Binary.encode registry type record = .ok bytes) :
    Shown registry unknown type record := by
  induction record using Record.depth_induction generalizing name type bytes with
  | h record ih =>
    obtain ⟨pieces, hpieces, _⟩ := Binary.encode_eq_ok_iff.1 hbytes
    have hmembers : ∀ i field key v, type.fields[i]? = some field →
        type.plainKeys[i]? = some key → record.value? i = some v →
        ∃ json, writeField registry type.name field v = .ok json ∧
          DenotesSlot registry unknown type record i (key, json) := by
      intro i field key v hfield hkey hv
      have hpiece := hpieces.piece i field v hfield hv
      have hfieldLinked := hlinked name type htype field (List.mem_of_getElem? hfield)
      have hinner : ∀ name slots child, field.kind.Holds v name slots →
          registry.codecMessageType name = .ok child → Shown registry unknown child slots := by
        intro name slots child hholds hchild
        obtain ⟨body, hbody⟩ := hpiece.exists_encode hholds hchild
        exact ih slots (hholds.depth_lt_of_value? hv)
          (Registry.messageType_of_codecMessageType hchild)
          (hexact.inner (hholds.contains hv)) hbody
      obtain ⟨json, hjson, hnull, hdenotes⟩ :=
        shownValue_of_piece unknown hfieldLinked hpiece hexact (.slot hv) hinner
      exact ⟨json, hjson, .intro hfield hv (hkeyed name type htype i key hkey) hnull hdenotes⟩
    obtain ⟨members, hwrite, hslots⟩ :=
      exists_members type.length_plainKeys hpieces.length_le hmembers
    refine ⟨_, ?_, denotesRecord_of_members hslots⟩
    unfold write objectOf
    rw [if_neg (Nat.not_lt.2 hpieces.length_le), hwrite]
    rfl

/-- A record that is written in binary is written as a plain object as well, and both are read as
the same record, or refused with the same error. -/
theorem decode_write {name : String} {bytes : Bytes} (hregistry : registry.Reachable)
    (hlinked : registry.Linked) (hdistinct : registry.DistinctNumbers)
    (hkeyed : registry.PlainKeyed) (htype : registry.messageType name = .ok type)
    (hexact : Exact record) (hbytes : Binary.encode registry type record = .ok bytes)
    (hlength : bytes.length < Wire.lengthBound) :
    ∃ json, write registry type record = .ok json ∧
      decode registry type json = Binary.decode registry type bytes := by
  have hread := Binary.merge_encode (registry.options.recursionLimit.toNat + 1)
    (Binary.throughout_readable hregistry hdistinct htype record) bytes hbytes hlength
  obtain ⟨json, hjson, hdenotes⟩ := shown_of_encode
    (if registry.options.ignoreUnknownJsonFields then .ignore else .refuse) hlinked hkeyed htype
    hexact hbytes
  refine ⟨json, hjson, ?_⟩
  exact (hdenotes (registry.options.recursionLimit.toNat + 1)).trans hread.symm

/-- A tree with a named child and an empty slot. -/
def namedTree : Record :=
  [some (.i32 7), none, some (.map [(.string "left", .message [some (.i32 5)])])]

/-- The values that are somewhere in the tree. -/
theorem contains_namedTree {v : Value} (h : namedTree.Contains v) :
    v = .i32 7 ∨ v = .map [(.string "left", .message [some (.i32 5)])] ∨
      v = .message [some (.i32 5)] ∨ v = .i32 5 := by
  induction h with
  | @slot i v h =>
    rcases i with _ | _ | _ | i <;> cases h
    · exact .inl rfl
    · exact .inr (.inl rfl)
  | @inner slots i v _ h ih =>
    rcases ih with heq | heq | heq | heq <;> cases heq
    rcases i with _ | i <;> cases h
    exact .inr (.inr (.inr rfl))
  | element _ _ ih => rcases ih with heq | heq | heq | heq <;> cases heq
  | entry _ h ih =>
    rcases ih with heq | heq | heq | heq <;> cases heq
    rw [List.mem_singleton.1 h]
    exact .inr (.inr (.inl rfl))

/-- The tree has no floating-point numbers, and its map has one entry. -/
theorem exact_namedTree : Exact namedTree where
  isNaN_eq v hv := by
    rcases contains_namedTree hv with rfl | rfl | rfl | rfl <;> rfl
  ordered entries hentries := by
    rcases contains_namedTree hentries with heq | heq | heq | heq <;> cases heq
    exact List.pairwise_singleton _ _

/-- The tree is read from its plain object as it is from its octets. -/
theorem decode_write_namedTree :
    ∃ json, write (treeRegistry {}) treeType namedTree = .ok json ∧
      decode (treeRegistry {}) treeType json = Binary.decode (treeRegistry {}) treeType
        [8, 7, 26, 10, 10, 4, 108, 101, 102, 116, 18, 2, 8, 5] :=
  decode_write (Registry.reachable_tree {}) (Registry.linked_tree {})
    (Registry.distinctNumbers_tree {}) (Registry.plainKeyed_tree {})
    (show (treeRegistry {}).messageType "Tree" = .ok treeType from rfl) exact_namedTree
    (show Binary.encode (treeRegistry {}) treeType namedTree = _ by cbv) (by decide)

end DynProto.Plain
