import DynProto.Binary.Reader
import DynProto.Plain.Reader
import DynProto.Proofs.Registry.Reachable
import DynProto.Proofs.Traversal

/-!
# What the recursion limit does

Two runs of a reader under two limits, the first of which is not larger: `Cut` says that the first
run stopped at its limit, or that both ended alike and the second did not stop at its own. Both
runs ask the same of the registry and meet the same faults in the same order, so the relation is
kept by everything that a reader is put together from, and it holds of the levels of nesting by
induction (`cut_readLevels`, `cut_merge`). So the limit cuts results off and never changes them
(`Input.outcome_withLimit`).
-/

namespace DynProto

/-! ## Two limits -/

/-- The registry with another recursion limit. -/
def Registry.withLimit (registry : Registry) (limit : UInt32) : Registry :=
  { registry with options := { registry.options with recursionLimit := limit } }

/-- How a run under one limit ends if a run under a larger one ends in some way. -/
inductive Cut (limit limit' : UInt32) {α : Type} :
    Except CodecError α → Except CodecError α → Prop
  /-- It stops at its limit. -/
  | exceeded {x : Except CodecError α} : Cut limit limit' (.error (.recursionLimit limit)) x
  /-- It ends in the same way, and not at the larger limit. -/
  | same {x : Except CodecError α} (h : x ≠ .error (.recursionLimit limit')) : Cut limit limit' x x

namespace Cut

variable {α β : Type} {limit limit' : UInt32}

/-- What succeeds under both limits with the same result. -/
theorem ok (a : α) : Cut limit limit' (.ok a) (.ok a) :=
  .same nofun

/-- What fails alike with an error of another sort. -/
theorem error {error : CodecError} (h : error ≠ .recursionLimit limit') :
    Cut (α := α) limit limit' (.error error) (.error error) :=
  .same fun heq => h (Except.error.inj heq)

/-- Two runs that go on with two runs. -/
theorem bind {x y : Except CodecError α} {f g : α → Except CodecError β}
    (h : Cut limit limit' x y) (hnext : ∀ a, Cut limit limit' (f a) (g a)) :
    Cut limit limit' (x >>= f) (y >>= g) := by
  rcases h with _ | h
  · exact .exceeded
  · rcases x with error | a
    · exact .error fun heq => h (congrArg Except.error heq)
    · exact hnext a

/-- Two runs through the elements of a list. -/
theorem mapM {f g : α → Except CodecError β} (h : ∀ a, Cut limit limit' (f a) (g a))
    (as : List α) : Cut limit limit' (as.mapM f) (as.mapM g) := by
  induction as with
  | nil => exact .ok []
  | cons a as ih =>
    rw [List.mapM_cons, List.mapM_cons]
    exact (h a).bind fun b => ih.bind fun bs => .ok (b :: bs)

/-- Two runs that carry a state through a list. -/
theorem foldlM {f g : β → α → Except CodecError β} (h : ∀ b a, Cut limit limit' (f b a) (g b a))
    (as : List α) (b : β) : Cut limit limit' (as.foldlM f b) (as.foldlM g b) := by
  induction as generalizing b with
  | nil => exact .ok b
  | cons a as ih =>
    rw [List.foldlM_cons, List.foldlM_cons]
    exact (h b a).bind ih

/-- What the relation says of two ends. -/
theorem outcome {x y : Except CodecError α} (h : Cut limit limit' x y) :
    (x = .error (.recursionLimit limit) ∨ x = y) ∧
      (y = .error (.recursionLimit limit') → x = .error (.recursionLimit limit)) := by
  rcases h with _ | h
  · exact ⟨.inl rfl, fun _ => rfl⟩
  · exact ⟨.inr rfl, fun heq => absurd heq h⟩

end Cut

variable {registry : Registry} {limit limit' : UInt32}

/-- A look-up ends alike, as it depends on no limit. -/
theorem cut_mapError_schema {α : Type} (found : Except SchemaError α) :
    Cut limit limit' (found.mapError .schema) (found.mapError .schema) := by
  rcases found with error | a
  · exact .error nofun
  · exact .ok a

/-- A message type is found alike. -/
theorem cut_codecMessageType (name : String) :
    Cut limit limit' ((registry.withLimit limit).codecMessageType name)
      ((registry.withLimit limit').codecMessageType name) :=
  cut_mapError_schema (registry.messageType name)

/-- An enum is found alike. -/
theorem cut_codecEnumType (name : String) :
    Cut limit limit' ((registry.withLimit limit).codecEnumType name)
      ((registry.withLimit limit').codecEnumType name) :=
  cut_mapError_schema (registry.enumType name)

/-! ## Plain objects -/

namespace Plain

variable {nested nested' : Nested} {unknown : UnknownKeys} {owner : String} {field : Field}

/-- What is read for a field without messages is read alike. -/
theorem cut_ofField {α : Type} (result : Except PlainReason α) :
    Cut limit limit' (ofField owner field result) (ofField owner field result) := by
  rcases result with reason | a
  · exact .error nofun
  · exact .ok a

/-- The value of an entry is read alike if the messages inside are. -/
theorem cut_readEntryValue
    (h : ∀ type json, Cut limit limit' (nested type json) (nested' type json))
    (value : MapValue) (json : Json) :
    Cut limit limit' (readEntryValue nested (registry.withLimit limit) owner field value json)
      (readEntryValue nested' (registry.withLimit limit') owner field value json) := by
  cases value with
  | scalar kind => exact cut_ofField _
  | enum name =>
    exact (cut_codecEnumType name).bind fun type => (cut_ofField _).bind fun n => .ok _
  | message name =>
    exact (cut_codecMessageType name).bind fun type => (h type json).bind fun inner => .ok _

/-- The value of a field is read alike if the messages inside are. -/
theorem cut_readField (h : ∀ type json, Cut limit limit' (nested type json) (nested' type json))
    (json : Json) :
    Cut limit limit' (readField nested (registry.withLimit limit) owner field json)
      (readField nested' (registry.withLimit limit') owner field json) := by
  unfold readField
  split
  · exact cut_ofField _
  · exact (cut_ofField _).bind fun items => (cut_ofField _).bind fun vs => .ok _
  · exact (cut_codecEnumType _).bind fun type => (cut_ofField _).bind fun n => .ok _
  · exact (cut_codecEnumType _).bind fun type => (cut_ofField _).bind fun items =>
      (cut_ofField _).bind fun numbers => .ok _
  · exact (cut_codecMessageType _).bind fun type => (h type json).bind fun inner => .ok _
  · exact (cut_codecMessageType _).bind fun type => (cut_ofField _).bind fun items =>
      (Cut.mapM (h type) items).bind fun records => .ok _
  · split
    · refine Cut.bind (Cut.foldlM (fun entries member => ?_) _ _) fun entries => .ok _
      exact (cut_ofField _).bind fun key => (cut_readEntryValue h _ _).bind fun v => .ok _
    · exact cut_ofField _

/-- A member of an object is applied alike if the messages inside are read alike. -/
theorem cut_readMember (h : ∀ type json, Cut limit limit' (nested type json) (nested' type json))
    (type : MessageType) (record : Record) (key : String) (json : Json) :
    Cut limit limit' (readMember nested (registry.withLimit limit) unknown type record key json)
      (readMember nested' (registry.withLimit limit') unknown type record key json) := by
  unfold readMember
  split
  · split
    · exact .ok record
    · exact .error nofun
  · split
    · exact .ok record
    · exact (cut_readField h _).bind fun v => .ok _

/-- A message is read alike, or not at all under the smaller number of levels. -/
theorem cut_readLevels {levels levels' : Nat} (hle : levels ≤ levels') (type : MessageType)
    (json : Json) :
    Cut limit limit' (readLevels (registry.withLimit limit) unknown levels type json)
      (readLevels (registry.withLimit limit') unknown levels' type json) := by
  induction levels generalizing levels' type json with
  | zero => exact .exceeded
  | succ levels ih =>
    obtain ⟨levels', rfl⟩ := Nat.exists_eq_succ_of_ne_zero (Nat.ne_zero_of_lt hle)
    have hinner := ih (Nat.le_of_succ_le_succ hle)
    rw [readLevels, readLevels]
    cases json
    case object members =>
      exact Cut.foldlM (fun record member => cut_readMember hinner _ _ _ _) _ _
    all_goals exact .error nofun

/-- More nestings are allowed under a larger limit. -/
theorem cut_read (hle : limit ≤ limit') (type : MessageType) (json : Json) :
    Cut limit limit' (read (registry.withLimit limit) unknown type json)
      (read (registry.withLimit limit') unknown type json) :=
  cut_readLevels (Nat.succ_le_succ (UInt32.le_iff_toNat_le.1 hle)) type json

/-- A record is created alike, or not at all under the smaller limit. -/
theorem cut_create (hle : limit ≤ limit') (type : MessageType) (values : Option Json) :
    Cut limit limit' (create (registry.withLimit limit) type values)
      (create (registry.withLimit limit') type values) := by
  unfold create
  split
  · exact .ok _
  · exact .ok _
  · exact cut_read hle type _

end Plain

/-! ## Octets -/

namespace Binary

variable {nested nested' : Nested} {type : MessageType}

/-- A slot is changed alike if its new value is found alike. -/
theorem cut_update {record : Record} {index : Nat} {f g : Option Value → Except CodecError Value}
    (h : ∀ slot, Cut limit limit' (f slot) (g slot)) :
    Cut limit limit' (update type record index f) (update type record index g) := by
  unfold update
  split
  · exact .error nofun
  · exact (h _).bind fun v => .ok _

/-- Fields are applied alike if each of them is. -/
theorem cut_foldFields {step step' : Record → Occurrence → Except CodecError Record}
    (h : ∀ record occurrence, Cut limit limit' (step record occurrence) (step' record occurrence))
    (record : Record) (bytes : Bytes) :
    Cut limit limit' (foldFields type step record bytes) (foldFields type step' record bytes) := by
  unfold foldFields
  refine (Cut.foldlM h _ record).bind fun record => ?_
  split
  · exact .ok record
  · exact .error nofun

/-- An occurrence that is no map entry is applied alike if the messages inside are read alike. -/
theorem cut_applyPlain
    (h : ∀ type record bytes,
      Cut limit limit' (nested type record bytes) (nested' type record bytes))
    (record : Record) (occurrence : Occurrence) :
    Cut limit limit' (applyPlain nested (registry.withLimit limit) type record occurrence)
      (applyPlain nested' (registry.withLimit limit') type record occurrence) := by
  cases occurrence with
  | unknown => exact .ok record
  | value index v => exact cut_update fun slot => .ok v
  | elements index vs => exact cut_update fun slot => .ok _
  | nested index name repeated body =>
    refine cut_update fun slot => (cut_codecMessageType name).bind fun child => ?_
    cases repeated
    · exact (h _ _ _).bind fun inner => .ok _
    · exact (h _ _ _).bind fun inner => .ok _
  | entry index key value body => exact .ok record

/-- The key and the value of an entry are found alike. -/
theorem cut_entryOf (owner : String) (key : Scalar) (value : MapValue) (record : Record) :
    Cut limit limit' (entryOf (registry.withLimit limit) owner key value record)
      (entryOf (registry.withLimit limit') owner key value record) := by
  unfold entryOf
  cases (record.value? 0).bind MapKey.ofValue? with
  | none =>
    cases record.value? 1 with
    | some v => exact .error nofun
    | none =>
      cases value with
      | scalar kind => exact .error nofun
      | enum name => exact .error nofun
      | message name => exact (cut_codecMessageType name).bind fun child => .error nofun
  | some k =>
    cases record.value? 1 with
    | some v => exact .ok (k, v)
    | none =>
      cases value with
      | scalar kind => exact .ok (k, _)
      | enum name => exact .ok (k, _)
      | message name => exact (cut_codecMessageType name).bind fun child => .ok (k, _)

/-- An occurrence is applied alike if the messages inside are read alike. -/
theorem cut_apply
    (h : ∀ type record bytes,
      Cut limit limit' (nested type record bytes) (nested' type record bytes))
    (record : Record) (occurrence : Occurrence) :
    Cut limit limit' (apply nested (registry.withLimit limit) type record occurrence)
      (apply nested' (registry.withLimit limit') type record occurrence) := by
  cases occurrence
  case entry index key value body =>
    refine cut_update fun slot => ?_
    refine (cut_foldFields (cut_applyPlain h) _ body).bind fun inner => ?_
    exact (cut_entryOf type.name key value inner).bind fun pair => .ok _
  all_goals
    unfold apply
    exact cut_applyPlain h record _

/-- Octets are merged alike, or not at all under the smaller number of levels. -/
theorem cut_merge {levels levels' : Nat} (hle : levels ≤ levels') (type : MessageType)
    (record : Record) (bytes : Bytes) :
    Cut limit limit' (merge (registry.withLimit limit) levels type record bytes)
      (merge (registry.withLimit limit') levels' type record bytes) := by
  induction levels generalizing levels' type record bytes with
  | zero => exact .exceeded
  | succ levels ih =>
    obtain ⟨levels', rfl⟩ := Nat.exists_eq_succ_of_ne_zero (Nat.ne_zero_of_lt hle)
    exact cut_foldFields (cut_apply (ih (Nat.le_of_succ_le_succ hle))) record bytes

/-- More nestings are allowed under a larger limit. -/
theorem cut_decode (hle : limit ≤ limit') (type : MessageType) (bytes : Bytes) :
    Cut limit limit' (decode (registry.withLimit limit) type bytes)
      (decode (registry.withLimit limit') type bytes) :=
  cut_merge (Nat.succ_le_succ (UInt32.le_iff_toNat_le.1 hle)) type _ bytes

end Binary

/-! ## Both -/

/-- What a record of a type is made from. -/
inductive Input where
  /-- The octets of a message. -/
  | octets (bytes : Bytes)
  /-- Values for a new message, if there are any. -/
  | values (given : Option Json)
  /-- The plain object of a message. -/
  | object (json : Json)

/-- The record of a type that is made from an input. -/
def Input.read (registry : Registry) (type : MessageType) : Input → Except CodecError Record
  | .octets bytes => Binary.decode registry type bytes
  | .values given => Plain.create registry type given
  | .object json => Plain.decode registry type json

/-- Of two recursion limits the smaller one only ever cuts a result off: under it reading stops at
the limit, or ends as it does under the larger one, be it with a record or with an error. Where
reading stops at the larger limit, it stops at the smaller one. -/
theorem Input.outcome_withLimit (registry : Registry) (type : MessageType) (input : Input)
    (hle : limit ≤ limit') :
    (input.read (registry.withLimit limit) type = .error (.recursionLimit limit) ∨
      input.read (registry.withLimit limit) type = input.read (registry.withLimit limit') type) ∧
    (input.read (registry.withLimit limit') type = .error (.recursionLimit limit') →
      input.read (registry.withLimit limit) type = .error (.recursionLimit limit)) := by
  cases input with
  | octets bytes => exact (Binary.cut_decode hle type bytes).outcome
  | values given => exact (Plain.cut_create hle type given).outcome
  | object json => exact (Plain.cut_read hle type json).outcome

/-- The octets of a tree with a grandchild, under limits that are both too small. -/
theorem Input.outcome_withLimit_tree :
    let input : Input := .octets [18, 2, 18, 0]
    (input.read ((treeRegistry {}).withLimit 0) treeType = .error (.recursionLimit 0) ∨
      input.read ((treeRegistry {}).withLimit 0) treeType
        = input.read ((treeRegistry {}).withLimit 1) treeType) ∧
    (input.read ((treeRegistry {}).withLimit 1) treeType = .error (.recursionLimit 1) →
      input.read ((treeRegistry {}).withLimit 0) treeType = .error (.recursionLimit 0)) :=
  Input.outcome_withLimit (treeRegistry {}) treeType (.octets [18, 2, 18, 0]) (by decide)

end DynProto
