import DynProto.Proofs.OrderedMap
import DynProto.Proofs.Record.Canonical
import DynProto.Proofs.Traversal

/-!
# Well-formed records

A record is of its type, `Shaped`, if it has one slot per field, only slots of single messages are
unset and every value is of the sort that its field calls for (`FieldKind.Suits`). This says nothing
yet about the messages inside; `Throughout` carries a property of records over to all of them, each
with the type that its field refers to. A record is `WellFormed` if it is shaped throughout, and
then it is canonical (`canonical_of_wellFormed`).

`Clear` is what a record needs when several fields of its type have one number: on the wire a number
means the first field that has it, so the others must hold their defaults, which are not written.
-/

namespace DynProto

/-! ## Messages inside -/

/-- The value of a field of a kind holds a message, of the type with this name and with these
slots. -/
inductive FieldKind.Holds : FieldKind → Value → String → Record → Prop
  /-- A single message. -/
  | single {name : String} {slots : Record} :
    Holds (.message name false) (.message slots) name slots
  /-- An element of a list. -/
  | element {name : String} {vs : List Value} {slots : Record} (h : .message slots ∈ vs) :
    Holds (.message name true) (.list vs) name slots
  /-- The value of an entry of a map. -/
  | entry {key : Scalar} {name : String} {entries : List (MapKey × Value)} {k : MapKey}
    {slots : Record} (h : (k, .message slots) ∈ entries) :
    Holds (.map key (.message name)) (.map entries) name slots

/-- A message is nested less deeply inside than the value that holds it. -/
theorem FieldKind.Holds.depth_lt {kind : FieldKind} {v : Value} {name : String} {slots : Record}
    (h : kind.Holds v name slots) : slots.depth < v.depth := by
  rcases h with _ | h | h
  · exact Nat.lt_succ_self _
  · exact Value.elementsDepth_le_iff.1 (Nat.le_refl _) _ h
  · exact Value.entriesDepth_le_iff.1 (Nat.le_refl _) _ h

/-- A message that the value of a slot holds is nested less deeply inside than the record. -/
theorem FieldKind.Holds.depth_lt_of_value? {kind : FieldKind} {v : Value} {name : String}
    {record slots : Record} {i : Nat} (h : kind.Holds v name slots)
    (hv : record.value? i = some v) : slots.depth < record.depth :=
  Nat.lt_of_lt_of_le h.depth_lt (Record.depth_le_iff.1 (Nat.le_refl _) i v hv)

/-- A message that the value of a slot holds is in the record. -/
theorem FieldKind.Holds.contains {kind : FieldKind} {v : Value} {name : String}
    {record slots : Record} {i : Nat} (h : kind.Holds v name slots)
    (hv : record.value? i = some v) : record.Contains (.message slots) := by
  rcases h with _ | h | h
  · exact .slot hv
  · exact .element (.slot hv) h
  · exact .entry (.slot hv) h

/-- A message that the value of an entry holds is held by the map. -/
theorem FieldKind.Holds.of_entry {key : Scalar} {value : MapValue} {entry : MapKey × Value}
    {entries : List (MapKey × Value)} {name : String} {slots : Record}
    (h : value.fieldKind.Holds entry.2 name slots) (hentry : entry ∈ entries) :
    (FieldKind.map key value).Holds (.map entries) name slots := by
  obtain ⟨k, v⟩ := entry
  rcases value with kind | type | type <;> rcases h with _ | _ | _
  exact .entry hentry

/-- A default does not hold messages. -/
theorem FieldKind.not_holds_default {kind : FieldKind} {v : Value} {name : String}
    {slots : Record} (hv : kind.default = some v) : ¬ kind.Holds v name slots := by
  rintro (_ | h | h)
  · cases hv
  · cases hv
    exact List.not_mem_nil h
  · cases hv
    exact List.not_mem_nil h

/-! ## References -/

/-- The name of the type of the messages that a field holds, if it holds messages. -/
def FieldKind.messageName? : FieldKind → Option String
  | .message name _ => some name
  | .map _ (.message name) => some name
  | _ => none

/-- A field holds messages of the type that it refers to. -/
theorem FieldKind.Holds.messageName?_eq {kind : FieldKind} {v : Value} {name : String}
    {slots : Record} (h : kind.Holds v name slots) : kind.messageName? = some name := by
  rcases h with _ | _ | _ <;> rfl

/-- A type refers to another one by its fields, or through other types; it also refers to
itself. -/
inductive Registry.Refers (registry : Registry) (type : MessageType) : MessageType → Prop
  /-- The type itself. -/
  | self : Refers registry type type
  /-- The type of the messages that a field holds. -/
  | field {middle child : MessageType} {field : Field} {name : String}
    (h : Refers registry type middle) (hfield : field ∈ middle.fields)
    (hname : field.kind.messageName? = some name)
    (hchild : registry.codecMessageType name = .ok child) : Refers registry type child

/-! ## Properties throughout a record -/

namespace Record

/-- A property holds of a record and of all messages inside whose types are found. -/
inductive Throughout (registry : Registry) (P : MessageType → Record → Prop) :
    MessageType → Record → Prop
  /-- It holds of the record itself and throughout each message that a slot holds. -/
  | intro {type : MessageType} {record : Record} (h : P type record)
    (hinner : ∀ i field v name slots child, type.fields[i]? = some field →
      record.value? i = some v → field.kind.Holds v name slots →
      registry.codecMessageType name = .ok child → Throughout registry P child slots) :
    Throughout registry P type record

variable {registry : Registry} {P Q : MessageType → Record → Prop} {type : MessageType}
  {record : Record}

/-- What holds throughout a record holds of the record. -/
theorem Throughout.holds (h : Throughout registry P type record) : P type record := by
  rcases h with ⟨h, _⟩
  exact h

/-- What holds throughout a record holds throughout each message inside. -/
theorem Throughout.inner (h : Throughout registry P type record) {i : Nat} {field : Field}
    {v : Value} {name : String} {slots : Record} {child : MessageType}
    (hfield : type.fields[i]? = some field) (hv : record.value? i = some v)
    (hholds : field.kind.Holds v name slots)
    (hchild : registry.codecMessageType name = .ok child) :
    Throughout registry P child slots := by
  rcases h with ⟨_, hinner⟩
  exact hinner _ _ _ _ _ _ hfield hv hholds hchild

/-- A property that follows from another one holds throughout where the other does. -/
theorem Throughout.mono (h : Throughout registry P type record)
    (hPQ : ∀ type record, P type record → Q type record) : Throughout registry Q type record := by
  induction h with
  | intro h _ ih => exact .intro (hPQ _ _ h) ih

/-- A property of all records of types in the registry holds throughout each. -/
theorem throughout_of_forall (h : P type record)
    (hall : ∀ name child slots, registry.codecMessageType name = .ok child → P child slots) :
    Throughout registry P type record := by
  induction record using depth_induction generalizing type with
  | h record ih =>
    refine .intro h fun i field v name slots child _ hv hholds hchild => ?_
    exact ih slots (hholds.depth_lt_of_value? hv) (hall _ _ _ hchild)

/-- A property of all records of the types that a type refers to holds throughout each of its
records. -/
theorem throughout_of_refers
    (hall : ∀ child slots, registry.Refers type child → P child slots) (record : Record) :
    Throughout registry P type record := by
  have hrefers : ∀ child, registry.Refers type child → Throughout registry P child record := by
    induction record using depth_induction with
    | h record ih =>
      intro child hchild
      refine .intro (hall child record hchild) fun i field v name slots inner hfield hv hholds
        hinner => ?_
      exact ih slots (hholds.depth_lt_of_value? hv) inner
        (hchild.field (List.mem_of_getElem? hfield) hholds.messageName?_eq hinner)
  exact hrefers type .self

/-- The value in a slot of the default record is the default of the field. -/
theorem value?_defaultRecord {i : Nat} {field : Field} (hfield : type.fields[i]? = some field) :
    value? type.defaultRecord i = field.kind.default := by
  simp [value?, MessageType.defaultRecord, hfield]

/-- A property of the default record holds throughout it. -/
theorem throughout_defaultRecord (h : P type type.defaultRecord) :
    Throughout registry P type type.defaultRecord := by
  refine .intro h fun i field v name slots child hfield hv hholds _ => ?_
  rw [value?_defaultRecord hfield] at hv
  exact absurd hholds (FieldKind.not_holds_default hv)

/-- The slots of a record after one was set. -/
theorem value?_set (record : Record) (i j : Nat) (v : Value) :
    value? (record.set i (some v)) j
      = if i = j ∧ i < record.length then some v else record.value? j := by
  unfold value?
  rw [List.getElem?_set]
  by_cases hij : i = j
  · subst hij
    by_cases hlt : i < record.length <;> simp [hlt]
  · simp [hij]

/-- A property holds throughout every message that the value of a field holds. -/
def Inside (registry : Registry) (P : MessageType → Record → Prop) (kind : FieldKind)
    (v : Value) : Prop :=
  ∀ name slots child, kind.Holds v name slots → registry.codecMessageType name = .ok child →
    Throughout registry P child slots

variable {kind : FieldKind} {v : Value} {name : String} {child : MessageType}

/-- What holds throughout a record holds inside the value of each slot. -/
theorem Throughout.inside (h : Throughout registry P type record) {i : Nat} {field : Field}
    (hfield : type.fields[i]? = some field) (hv : record.value? i = some v) :
    Inside registry P field.kind v :=
  fun _ _ _ hholds hchild => h.inner hfield hv hholds hchild

/-- Setting a slot keeps a property throughout if the record keeps it and it holds inside the new
value. -/
theorem Throughout.set (h : Throughout registry P type record) {i : Nat} {field : Field}
    (hfield : type.fields[i]? = some field) (hP : P type (record.set i (some v)))
    (hv : Inside registry P field.kind v) :
    Throughout registry P type (record.set i (some v)) := by
  refine .intro hP fun j field' v' name slots child hfield' hv' hholds hchild => ?_
  rw [value?_set] at hv'
  split at hv'
  · rename_i hij
    cases hij.1
    cases hv'
    rw [hfield] at hfield'
    cases hfield'
    exact hv _ _ _ hholds hchild
  · exact h.inner hfield' hv' hholds hchild

/-- A value that is not nested holds nothing. -/
theorem inside_of_depth_eq_zero (h : v.depth = 0) : Inside registry P kind v := by
  intro name slots child hholds _
  have hlt := hholds.depth_lt
  omega

/-- A message holds itself. -/
theorem inside_message (hchild : registry.codecMessageType name = .ok child)
    (h : Throughout registry P child record) :
    Inside registry P (.message name false) (.message record) := by
  rintro _ _ child' ⟨⟩ hchild'
  rw [hchild] at hchild'
  cases hchild'
  exact h

/-- A list of messages holds each of them. -/
theorem inside_messages (hchild : registry.codecMessageType name = .ok child)
    {records : List Record} (h : ∀ record ∈ records, Throughout registry P child record) :
    Inside registry P (.message name true) (.list (records.map .message)) := by
  rintro _ slots child' hholds hchild'
  rcases hholds with _ | hmem
  obtain ⟨_, hrecord, ⟨⟩⟩ := List.mem_map.1 hmem
  rw [hchild] at hchild'
  cases hchild'
  exact h slots hrecord

/-- What holds inside two lists holds inside the two joined. -/
theorem Inside.append {front back : List Value} (h : Inside registry P kind (.list front))
    (h' : Inside registry P kind (.list back)) :
    Inside registry P kind (.list (front ++ back)) := by
  rintro name slots child hholds hchild
  rcases hholds with _ | hmem
  rcases List.mem_append.1 hmem with hmem | hmem
  · exact h name slots child (.element hmem) hchild
  · exact h' name slots child (.element hmem) hchild

/-- What holds inside a map and inside a value holds inside the map with the value. -/
theorem Inside.insert {key : Scalar} {value : MapValue} {entries : OrderedMap MapKey Value}
    (h : Inside registry P (.map key value) (.map entries)) {k : MapKey}
    (hv : Inside registry P value.fieldKind v) :
    Inside registry P (.map key value) (.map (entries.insert k v)) := by
  rintro name slots child hholds hchild
  rcases hholds with _ | _ | hmem
  rcases OrderedMap.mem_of_mem_insert hmem with heq | hold
  · cases heq
    exact hv name slots child .single hchild
  · exact h name slots child (.entry hold) hchild

/-- Two properties that hold throughout hold together throughout. -/
theorem Throughout.and (hP : Throughout registry P type record)
    (hQ : Throughout registry Q type record) :
    Throughout registry (fun type record => P type record ∧ Q type record) type record := by
  induction hP with
  | intro h _ ih =>
    refine .intro ⟨h, hQ.holds⟩ fun i field v name slots child hfield hv hholds hchild => ?_
    exact ih i field v name slots child hfield hv hholds hchild
      (hQ.inner hfield hv hholds hchild)

end Record

/-! ## Numbers and places -/

namespace MessageType

/-- A number leads to the place of a field that has it. -/
theorem exists_of_indexOfNumber? {type : MessageType} {number i : Nat}
    (h : type.indexOfNumber? number = some i) :
    ∃ field, type.fields[i]? = some field ∧ field.number = number := by
  obtain ⟨hlt, hmatch, _⟩ := List.findIdx?_eq_some_iff_getElem.1 h
  exact ⟨_, List.getElem?_eq_getElem hlt, beq_iff_eq.1 hmatch⟩

/-- A number is unknown exactly if no field has it. -/
theorem indexOfNumber?_eq_none {type : MessageType} {number : Nat} :
    type.indexOfNumber? number = none ↔ ∀ field ∈ type.fields, field.number ≠ number := by
  rw [indexOfNumber?, List.findIdx?_eq_none_iff]
  refine forall₂_congr fun field _ => ?_
  rw [beq_eq_false_iff_ne]

/-- Where no two fields have one number, the number of a field leads to its place. -/
theorem indexOfNumber?_of_nodup {type : MessageType}
    (h : (type.fields.map Field.number).Nodup) {i : Nat} {field : Field}
    (hfield : type.fields[i]? = some field) : type.indexOfNumber? field.number = some i :=
  findIdx?_of_nodup h hfield

end MessageType

/-! ## Shape -/

/-- A value is of the sort that a field of a kind calls for: a value of the scalar kind, the number
of an enum value, a message whose type is found, a list of such, or a map whose keys are of the key
kind. -/
inductive FieldKind.Suits (registry : Registry) : FieldKind → Value → Prop
  /-- A value of a scalar kind. -/
  | scalar {kind : Scalar} {v : Value} (h : v.fits kind = true) :
    Suits registry (.scalar kind false) v
  /-- The number of an enum value. -/
  | enum {name : String} {n : Int32} : Suits registry (.enum name false) (.enum n)
  /-- A message whose type is found. -/
  | message {name : String} {slots : Record} {child : MessageType}
    (h : registry.codecMessageType name = .ok child) :
    Suits registry (.message name false) (.message slots)
  /-- Values of a scalar kind. -/
  | scalars {kind : Scalar} {vs : List Value} (h : ∀ v ∈ vs, v.fits kind = true) :
    Suits registry (.scalar kind true) (.list vs)
  /-- Numbers of enum values. -/
  | enums {name : String} {vs : List Value} (h : ∀ v ∈ vs, ∃ n, v = .enum n) :
    Suits registry (.enum name true) (.list vs)
  /-- Messages whose type is found. -/
  | messages {name : String} {vs : List Value}
    (h : ∀ v ∈ vs, ∃ slots child, v = .message slots ∧
      registry.codecMessageType name = .ok child) :
    Suits registry (.message name true) (.list vs)
  /-- A map in the order of its keys. -/
  | map {key : Scalar} {value : MapValue} {entries : List (MapKey × Value)}
    (hordered : OrderedMap.Ordered entries)
    (hkeys : ∀ entry ∈ entries, entry.1.toValue.fits key = true)
    (hvalues : ∀ entry ∈ entries, Suits registry value.fieldKind entry.2) :
    Suits registry (.map key value) (.map entries)

/-- What a single scalar field calls for fits its kind. -/
theorem FieldKind.Suits.fits {registry : Registry} {kind : Scalar} {v : Value}
    (h : (FieldKind.scalar kind false).Suits registry v) : v.fits kind = true := by
  cases h
  assumption

/-- A field whose default is the empty list calls for lists. -/
theorem FieldKind.Suits.exists_list {registry : Registry} {kind : FieldKind} {v : Value}
    (h : kind.Suits registry v) (hdefault : kind.default = some (.list [])) :
    ∃ vs, v = .list vs := by
  rcases h with @⟨kind, v, h⟩ | _ | _ | @⟨kind, vs, h⟩ | @⟨name, vs, h⟩ | @⟨name, vs, h⟩ | _
  case scalar => cases kind <;> cases hdefault
  case enum | message | map => cases hdefault
  all_goals exact ⟨vs, rfl⟩

/-- What a field of a single message calls for is a message. -/
theorem FieldKind.Suits.exists_message {registry : Registry} {name : String} {v : Value}
    (h : (FieldKind.message name false).Suits registry v) : ∃ slots, v = .message slots := by
  rcases h with _ | _ | @⟨_, slots, _, _⟩
  exact ⟨slots, rfl⟩

/-- What a map field calls for is a map in the order of its keys. -/
theorem FieldKind.Suits.exists_map {registry : Registry} {key : Scalar} {value : MapValue}
    {v : Value} (h : (FieldKind.map key value).Suits registry v) :
    ∃ entries, v = .map entries ∧ OrderedMap.Ordered entries := by
  rcases h with _ | _ | _ | _ | _ | _ | @⟨_, _, entries, hordered, _, _⟩
  exact ⟨entries, rfl, hordered⟩

/-- Lists of the right sort may be joined. -/
theorem FieldKind.Suits.append {registry : Registry} {kind : FieldKind} {front back : List Value}
    (h : kind.Suits registry (.list front)) (h' : kind.Suits registry (.list back)) :
    kind.Suits registry (.list (front ++ back)) := by
  rcases h with h | _ | _ | h | h | h | _
  · cases h
  · rcases h' with _ | _ | _ | h'
    exact .scalars (List.forall_mem_append.2 ⟨h, h'⟩)
  · rcases h' with _ | _ | _ | _ | h'
    exact .enums (List.forall_mem_append.2 ⟨h, h'⟩)
  · rcases h' with _ | _ | _ | _ | _ | h'
    exact .messages (List.forall_mem_append.2 ⟨h, h'⟩)

/-- A field that may hold a list may hold the empty one. -/
theorem FieldKind.Suits.nil {registry : Registry} {kind : FieldKind} {vs : List Value}
    (h : kind.Suits registry (.list vs)) : kind.Suits registry (.list []) := by
  rcases h with h | _ | _ | _ | _ | _ | _
  · cases h
  · exact .scalars (by simp)
  · exact .enums (by simp)
  · exact .messages (by simp)

/-- An entry of the right sort may be inserted into a map. -/
theorem FieldKind.Suits.insert {registry : Registry} {key : Scalar} {value : MapValue}
    {entries : OrderedMap MapKey Value}
    (h : (FieldKind.map key value).Suits registry (.map entries))
    {k : MapKey} {v : Value} (hkey : k.toValue.fits key = true)
    (hvalue : value.fieldKind.Suits registry v) :
    (FieldKind.map key value).Suits registry (.map (entries.insert k v)) := by
  rcases h with _ | _ | _ | _ | _ | _ | ⟨hordered, hkeys, hvalues⟩
  refine .map (OrderedMap.ordered_insert k v hordered) (fun entry hentry => ?_)
    fun entry hentry => ?_
  · rcases OrderedMap.mem_of_mem_insert hentry with rfl | hold
    · exact hkey
    · exact hkeys entry hold
  · rcases OrderedMap.mem_of_mem_insert hentry with rfl | hold
    · exact hvalue
    · exact hvalues entry hold

/-- A default is of the sort that its field calls for. -/
theorem FieldKind.suits_default {registry : Registry} {kind : FieldKind} {v : Value}
    (h : kind.default = some v) : kind.Suits registry v := by
  rcases kind with ⟨kind, _ | _⟩ | ⟨name, _ | _⟩ | ⟨name, _ | _⟩ | ⟨key, value⟩ <;> cases h
  · exact .scalar (Value.fits_scalarDefault kind)
  · exact .scalars (by simp)
  · exact .enum
  · exact .enums (by simp)
  · exact .messages (by simp)
  · exact .map List.Pairwise.nil (by simp) (by simp)

/-- Only single messages have no default. -/
theorem FieldKind.exists_message_of_default {kind : FieldKind} (h : kind.default = none) :
    ∃ name, kind = .message name false := by
  rcases kind with ⟨kind, _ | _⟩ | ⟨name, _ | _⟩ | ⟨name, _ | _⟩ | ⟨key, value⟩ <;> cases h
  exact ⟨name, rfl⟩

/-- A default is not nested. -/
theorem FieldKind.depth_default {kind : FieldKind} {v : Value} (h : kind.default = some v) :
    v.depth = 0 := by
  rcases kind with ⟨kind, _ | _⟩ | ⟨name, _ | _⟩ | ⟨name, _ | _⟩ | ⟨key, value⟩ <;> cases h
  case scalar.false => exact Value.depth_of_fits (Value.fits_scalarDefault kind)
  all_goals rfl

namespace Record

/-- A record of a type, the messages inside left aside. -/
structure Shaped (registry : Registry) (type : MessageType) (record : Record) : Prop where
  /-- There is one slot per field. -/
  length_eq : record.length = type.fields.length
  /-- Only slots of single messages are unset. -/
  unset : ∀ i field, type.fields[i]? = some field → record.value? i = none →
    ∃ name, field.kind = .message name false
  /-- Every value is of the sort that its field calls for. -/
  suits : ∀ i field v, type.fields[i]? = some field → record.value? i = some v →
    field.kind.Suits registry v

/-- The slot of a field exists. -/
theorem Shaped.getElem? {registry : Registry} {type : MessageType} {record : Record}
    (h : Shaped registry type record) {i : Nat} {field : Field}
    (hfield : type.fields[i]? = some field) : record[i]? = some (record.value? i) := by
  have hlt : i < record.length := by
    rw [h.length_eq]
    exact (List.getElem?_eq_some_iff.1 hfield).1
  simp [value?, List.getElem?_eq_getElem hlt]

/-- A record that is of its type throughout. -/
def WellFormed (registry : Registry) (type : MessageType) (record : Record) : Prop :=
  Throughout registry (Shaped registry) type record

/-- Of several fields with one number, only the first holds something that is written. -/
def Clear (type : MessageType) (record : Record) : Prop :=
  ∀ i field v, type.fields[i]? = some field → record.value? i = some v →
    type.indexOfNumber? field.number = some i ∨ field.kind.default = some v

variable {registry : Registry} {type : MessageType} {record : Record}

/-- The default record is of its type. -/
theorem shaped_defaultRecord (registry : Registry) (type : MessageType) :
    Shaped registry type type.defaultRecord where
  length_eq := type.length_defaultRecord
  unset i field hfield hv := by
    rw [value?_defaultRecord hfield] at hv
    exact FieldKind.exists_message_of_default hv
  suits i field v hfield hv := by
    rw [value?_defaultRecord hfield] at hv
    exact FieldKind.suits_default hv

/-- The default record is of its type throughout. -/
theorem wellFormed_defaultRecord (registry : Registry) (type : MessageType) :
    WellFormed registry type type.defaultRecord :=
  throughout_defaultRecord (shaped_defaultRecord registry type)

/-- The default record is clear. -/
theorem clear_defaultRecord (type : MessageType) : Clear type type.defaultRecord := by
  intro i field v hfield hv
  rw [value?_defaultRecord hfield] at hv
  exact .inr hv

/-- A value of the right sort may be set. -/
theorem Shaped.set (h : Shaped registry type record) {i : Nat} {field : Field} {v : Value}
    (hfield : type.fields[i]? = some field) (hv : field.kind.Suits registry v) :
    Shaped registry type (record.set i (some v)) where
  length_eq := by rw [List.length_set, h.length_eq]
  unset j field' hfield' hnone := by
    rw [value?_set] at hnone
    split at hnone
    · cases hnone
    · exact h.unset j field' hfield' hnone
  suits j field' v' hfield' hv' := by
    rw [value?_set] at hv'
    split at hv'
    · rename_i hij
      cases hij.1
      cases hv'
      rw [hfield] at hfield'
      cases hfield'
      exact hv
    · exact h.suits j field' v' hfield' hv'

/-- The first field with a number may be set. -/
theorem Clear.set (h : Clear type record) {i : Nat} {field : Field} (v : Value)
    (hfield : type.fields[i]? = some field) (hindex : type.indexOfNumber? field.number = some i) :
    Clear type (record.set i (some v)) := by
  intro j field' v' hfield' hv'
  rw [value?_set] at hv'
  split at hv'
  · rename_i hij
    cases hij.1
    rw [hfield] at hfield'
    cases hfield'
    exact .inl hindex
  · exact h j field' v' hfield' hv'

/-! ## Well-formed records are canonical -/

/-- A value of the right sort stands for itself if the messages inside do. -/
theorem canonicalValue_of_suits {kind : FieldKind} {v : Value} (h : kind.Suits registry v)
    (hinner : ∀ name slots child, kind.Holds v name slots →
      registry.codecMessageType name = .ok child → registry.canonical child slots = slots) :
    registry.canonicalValue kind v = v := by
  have hmessage : ∀ {name slots child}, registry.codecMessageType name = .ok child →
      registry.canonical child slots = slots →
      registry.canonicalValue (.message name false) (.message slots) = .message slots := by
    intro name slots child hchild hslots
    rw [Registry.canonicalValue_message hchild, hslots]
  induction h with
  | scalar h => exact registry.canonicalValue_scalar _ _ _
  | enum => rfl
  | message h => exact hmessage h (hinner _ _ _ .single h)
  | scalars h => exact registry.canonicalValue_scalar _ _ _
  | enums h =>
    rw [Registry.canonicalValue, Registry.canonicalElements_eq_map]
    refine congrArg Value.list ((List.map_congr_left fun v hv => ?_).trans (List.map_id _))
    obtain ⟨n, rfl⟩ := h v hv
    rfl
  | messages h =>
    rw [Registry.canonicalValue, Registry.canonicalElements_eq_map]
    refine congrArg Value.list ((List.map_congr_left fun v hv => ?_).trans (List.map_id _))
    obtain ⟨slots, child, rfl, hchild⟩ := h v hv
    exact hmessage hchild (hinner _ _ _ (.element hv) hchild)
  | @map key value entries hordered _ _ ih =>
    have hself : registry.canonicalEntries value entries = entries := by
      rw [Registry.canonicalEntries_eq_map]
      refine (List.map_congr_left fun entry hentry => ?_).trans (List.map_id _)
      rw [ih entry hentry fun name slots child hholds => hinner _ _ _ (hholds.of_entry hentry)]
      rfl
    rw [Registry.canonicalValue, hself, OrderedMap.ofList_of_ordered hordered]

/-- A default stands for itself. -/
theorem canonicalValue_default {kind : FieldKind} {v : Value} (h : kind.default = some v) :
    registry.canonicalValue kind v = v :=
  canonicalValue_of_suits (FieldKind.suits_default h) fun _ _ _ hholds =>
    absurd hholds (FieldKind.not_holds_default h)

/-- A record that is of its type throughout stands for itself. -/
theorem canonical_of_wellFormed (h : WellFormed registry type record) :
    registry.canonical type record = record := by
  induction h with
  | @intro type record h _ ih =>
    refine List.ext_getElem? fun i => ?_
    rw [Registry.canonical, Registry.getElem?_canonicalSlots]
    rcases hfield : type.fields[i]? with _ | field
    · rw [List.getElem?_eq_none_iff, ← h.length_eq] at hfield
      rw [List.getElem?_eq_none_iff.2 hfield]
      rfl
    · rw [h.getElem? hfield, Option.map_some, Registry.canonicalSlot]
      rcases hv : record.value? i with _ | v
      · obtain ⟨name, hkind⟩ := h.unset i field hfield hv
        rw [hkind]
        rfl
      · rw [Option.elim_some, canonicalValue_of_suits (h.suits i field v hfield hv)
          fun name slots child hholds hchild =>
            ih i field v name slots child hfield hv hholds hchild]

end Record

end DynProto
