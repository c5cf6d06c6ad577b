import DynProto.Proofs.Binary.WellFormed
import DynProto.Proofs.Registry.MapKeys

/-!
# How reading octets can fail

`Failure` lists what may be wrong with octets. Reading looks out for two more faults, a record with
too few slots and a map whose keys are of a kind that keys cannot be of; in a registry that can be
reached neither occurs at any level (`failure_of_decode`), because the records that are filled are
of their types throughout and the keys of all maps are of kinds that keys may be of. With the
numbers of the fields and the order of writing, this is what makes a type that is found fit for
reading and writing (`sound_of_messageType`).
-/

namespace DynProto.Binary

open Wire

/-- What reading octets can end with other than a record. -/
inductive Failure (registry : Registry) : CodecError → Prop
  /-- The octets are no fields on the wire. -/
  | octets (type : String) (fault : Wire.Fault) : Failure registry (.decode type (.wire fault))
  /-- Messages are nested too deeply. -/
  | nesting : Failure registry (.recursionLimit registry.options.recursionLimit)
  /-- A type that a field refers to is not declared. -/
  | reference (name : String) : Failure registry (.schema (.unknownType name))

variable {registry : Registry} {type : MessageType} {record : Record} {error : CodecError}

/-- A type that is not found is not declared. -/
theorem failure_of_codecMessageType {name : String}
    (h : registry.codecMessageType name = .error error) : Failure registry error := by
  obtain ⟨undeclared, rfl⟩ := Registry.exists_unknownType_of_codecMessageType h
  exact .reference undeclared

/-! ## Slots -/

/-- An update of a slot that exists fails only with the change of the slot. -/
theorem exists_of_update_eq_error {index : Nat} {field : Field}
    {f : Option Value → Except CodecError Value} (hrecord : Regular registry type record)
    (hfield : type.fields[index]? = some field) (h : update type record index f = .error error) :
    ∃ slot, record[index]? = some slot ∧ f slot = .error error := by
  have hslot := hrecord.holds.1.getElem? hfield
  refine ⟨_, hslot, ?_⟩
  unfold update at h
  rw [hslot] at h
  rcases except_bind_eq_error.1 h with h | ⟨v, _, h⟩
  · exact h
  · cases h

/-- Reading fields fails with the octets or with one of the fields. -/
theorem failure_of_foldFields {step : Record → Occurrence → Except CodecError Record}
    (hkeeps : ∀ record occurrence next, occurrence.Belongs registry type →
      Regular registry type record → step record occurrence = .ok next → Regular registry type next)
    (hstep : ∀ record occurrence error, occurrence.Belongs registry type →
      Regular registry type record → step record occurrence = .error error → Failure registry error)
    {bytes : Bytes} (hrecord : Regular registry type record)
    (h : foldFields type step record bytes = .error error) : Failure registry error := by
  have hbelongs : ∀ occurrence ∈ (occurrences type bytes).1, occurrence.Belongs registry type :=
    belongs_of_mem_occurrences
  unfold foldFields at h
  rcases hcut : occurrences type bytes with ⟨fields, fault⟩
  rw [hcut] at h hbelongs
  rcases except_bind_eq_error.1 h with h | ⟨last, _, h⟩
  · obtain ⟨before, occurrence, after, last, rfl, hbefore, hlast⟩ := foldlM_eq_error_iff.1 h
    refine hstep last occurrence error (hbelongs _ (by simp)) ?_ hlast
    refine foldlM_preserves (Regular registry type) ?_ hrecord hbefore
    intro record occurrence next hmem
    exact hkeeps record occurrence next (hbelongs _ (List.mem_append_left _ hmem))
  · cases fault with
    | none => cases h
    | some fault =>
      cases h
      exact .octets type.name fault

/-! ## Steps -/

/-- A reader of nested messages that fails only with what may be wrong. -/
def FailsOnly (registry : Registry) (nested : Nested) : Prop :=
  ∀ type record bytes error, type.MapKeyed → Regular registry type record →
    nested type record bytes = .error error → Failure registry error

variable {nested : Nested} {occurrence : Occurrence}

/-- A type that a field refers to has maps with keys that are allowed. -/
theorem mapKeyed_of_codecMessageType (hregistry : registry.MapKeyed) {name : String}
    {child : MessageType} (h : registry.codecMessageType name = .ok child) : child.MapKeyed :=
  hregistry.of_messageType (Registry.messageType_of_codecMessageType h)

/-- Applying an occurrence that belongs to a field fails only with what may be wrong, map entries
aside. -/
theorem failure_of_applyPlain (hregistry : registry.MapKeyed) (hnested : FailsOnly registry nested)
    (hbelongs : occurrence.Belongs registry type) (hrecord : Regular registry type record)
    (h : applyPlain nested registry type record occurrence = .error error) :
    Failure registry error := by
  rcases hbelongs with _ | ⟨hfield, _, _, _⟩ | ⟨hfield, _, _, _⟩ |
    @⟨index, field, name, repeated, body, hfield, _, hkind⟩ | _
  case unknown | entry => cases h
  all_goals obtain ⟨slot, hslot, h⟩ := exists_of_update_eq_error hrecord hfield h
  case value | elements => cases h
  case nested =>
    rcases except_bind_eq_error.1 h with h | ⟨child, hchild, h⟩
    · exact failure_of_codecMessageType h
    · have hkeyed := mapKeyed_of_codecMessageType hregistry hchild
      cases repeated <;> rcases except_bind_eq_error.1 h with h | ⟨inner, _, h⟩
      · exact hnested _ _ _ _ hkeyed (hrecord.messageOf hfield hslot hkind hchild) h
      · cases h
      · exact hnested _ _ _ _ hkeyed (regular_defaultRecord registry child) h
      · cases h

/-! ## Map entries -/

/-- A value of a kind that keys may be of is a key. -/
theorem exists_ofValue?_of_fits {key : Scalar} {v : Value} (hkey : key.isMapKey = true)
    (hv : v.fits key = true) : ∃ k, MapKey.ofValue? v = some k := by
  cases v
  case f32 | f64 | bytes =>
    rw [beq_iff_eq.1 hv] at hkey
    cases hkey
  case enum | message | list | map => cases hv
  all_goals exact ⟨_, rfl⟩

/-- The record of an entry holds a key, if its kind is one that keys may be of. -/
theorem exists_key_of_regular {owner : String} {key : Scalar} {value : MapValue} {inner : Record}
    (hkey : key.isMapKey = true) (h : Regular registry (entryType owner key value) inner) :
    ∃ k, (inner.value? 0).bind MapKey.ofValue? = some k := by
  have hfield : (entryType owner key value).fields[0]?
      = some ⟨1, "key", none, .scalar key false⟩ := by
    rw [entryType_fields]
    rfl
  rcases hslot : inner.value? 0 with _ | v
  · obtain ⟨name, hname⟩ := h.holds.1.unset 0 _ hfield hslot
    cases hname
  · exact exists_ofValue?_of_fits hkey (h.holds.1.suits 0 _ _ hfield hslot).fits

/-- The key and the value of an entry are there, unless the type of the value is not declared. -/
theorem failure_of_entryOf {owner : String} {key : Scalar} {value : MapValue} {inner : Record}
    (hkey : key.isMapKey = true) (hinner : Regular registry (entryType owner key value) inner)
    (h : entryOf registry owner key value inner = .error error) : Failure registry error := by
  obtain ⟨k, hk⟩ := exists_key_of_regular hkey hinner
  unfold entryOf at h
  rw [hk] at h
  rcases hslot : inner.value? 1 with _ | v <;> rw [hslot] at h
  · rcases value with kind | name | name
    · cases h
    · cases h
    · rcases except_bind_eq_error.1 h with h | ⟨child, _, h⟩
      · exact failure_of_codecMessageType h
      · cases h
  · cases h

/-- Applying an occurrence that belongs to a field fails only with what may be wrong. -/
theorem failure_of_apply (hregistry : registry.MapKeyed) (htype : type.MapKeyed)
    (hnested : FailsOnly registry nested) (hkeeps : KeepsRegular registry nested)
    (hbelongs : occurrence.Belongs registry type) (hrecord : Regular registry type record)
    (h : apply nested registry type record occurrence = .error error) : Failure registry error := by
  by_cases hentry : ∃ index key value body, occurrence = .entry index key value body
  · obtain ⟨index, key, value, body, rfl⟩ := hentry
    rcases hbelongs with _ | _ | _ | _ | ⟨hfield, _, hkind⟩
    obtain ⟨slot, _, h⟩ := exists_of_update_eq_error hrecord hfield h
    have hkey := htype _ (List.mem_of_getElem? hfield) key value hkind
    rcases except_bind_eq_error.1 h with h | ⟨inner, hinner, h⟩
    · exact failure_of_foldFields
        (fun _ _ _ hbelongs hrecord => regular_applyPlain hkeeps hbelongs hrecord)
        (fun _ _ _ hbelongs hrecord => failure_of_applyPlain hregistry hnested hbelongs hrecord)
        (regular_defaultRecord registry _) h
    · have hregular := foldFields_preserves (Regular registry (entryType type.name key value))
        (fun _ _ _ hbelongs hrecord hstep => regular_applyPlain hkeeps hbelongs hrecord hstep)
        (regular_defaultRecord registry _) hinner
      rcases except_bind_eq_error.1 h with h | ⟨pair, _, h⟩
      · exact failure_of_entryOf hkey hregular h
      · cases h
  · refine failure_of_applyPlain hregistry hnested hbelongs hrecord ?_
    cases occurrence
    case entry => exact absurd ⟨_, _, _, _, rfl⟩ hentry
    all_goals exact h

/-! ## Messages -/

/-- Reading octets into a regular record fails only with what may be wrong, however many levels are
allowed. -/
theorem failsOnly_merge (hregistry : registry.MapKeyed) (levels : Nat) :
    FailsOnly registry (merge registry levels) := by
  induction levels with
  | zero =>
    intro type record bytes error _ _ h
    cases h
    exact .nesting
  | succ levels ih =>
    intro type record bytes error htype hrecord h
    have hkeeps := keepsRegular_merge registry levels
    exact failure_of_foldFields
      (fun _ _ _ hbelongs hrecord => regular_apply hkeeps hbelongs hrecord)
      (fun _ _ _ hbelongs hrecord =>
        failure_of_apply hregistry htype ih hkeeps hbelongs hrecord) hrecord h

/-- Reading octets fails only with what may be wrong with them. -/
theorem failure_of_decode (hregistry : registry.MapKeyed) (htype : type.MapKeyed) {bytes : Bytes}
    (h : decode registry type bytes = .error error) : Failure registry error :=
  failsOnly_merge hregistry _ _ _ _ _ htype (regular_defaultRecord registry type) h

/-! ## Types that are found -/

/-- What reading and writing rely on with a message type of a registry. -/
structure Sound (registry : Registry) (type : MessageType) : Prop where
  /-- The numbers of the fields are numbers that fields may have, so that a key with any wire type
  fits 32 bits. -/
  numbers : ∀ field ∈ type.fields, 1 ≤ field.number ∧ field.number ≤ 536870911 ∧
    ∀ wireType : WireType, 8 * field.number + wireType.code < 2 ^ 32
  /-- The keys of map fields are integers, truth values or texts. -/
  keys : ∀ field ∈ type.fields, ∀ key value, field.kind = .map key value → key.isMapKey = true
  /-- Every field is written once. -/
  order_perm : type.wireOrder.Perm (List.range type.fields.length)
  /-- Fields are written in the order of their numbers, those with one number in declared order. -/
  order_pairwise : type.wireOrder.Pairwise fun i j =>
    type.numberAt i < type.numberAt j ∨ type.numberAt i = type.numberAt j ∧ i < j
  /-- Reading fails with the octets, the depth of nesting or a type that is not declared. -/
  failure : ∀ bytes error, decode registry type bytes = .error error → Failure registry error
  /-- On no level does a record lack a slot. -/
  slots : ∀ bytes owner, decode registry type bytes ≠ .error (.decode owner .missingSlot)
  /-- On no level is a map read whose keys cannot be keys. -/
  mapKeys : ∀ bytes owner kind, decode registry type bytes ≠ .error (.decode owner (.mapKey kind))

/-- Whatever was declared, taken or refused before, a message type that is found is one that reading
and writing can rely on. -/
theorem sound_of_messageType (h : Registry.Reachable registry) {name : String}
    (htype : registry.messageType name = .ok type) : Sound registry type := by
  have hregistry := Registry.mapKeyed_of_reachable h
  have hkeys := hregistry.of_messageType htype
  have hfailure : ∀ bytes error, decode registry type bytes = .error error →
      Failure registry error := by
    intro bytes error hdecode
    exact failure_of_decode hregistry hkeys hdecode
  refine ⟨?_, hkeys, type.wireOrder_perm, type.wireOrder_pairwise, hfailure, ?_, ?_⟩
  · intro field hfield
    obtain ⟨hpos, hle⟩ := Registry.numbered_of_messageType h htype field hfield
    refine ⟨hpos, hle, ?_⟩
    intro wireType
    have hcode : wireType.code < 8 := by
      cases wireType <;> decide
    have hmax : Registry.maxFieldNumber = 536870911 := rfl
    omega
  · intro bytes owner hdecode
    cases hfailure bytes _ hdecode
  · intro bytes owner kind hdecode
    cases hfailure bytes _ hdecode

/-- The type of trees, with a map from texts to trees, is one of these. -/
theorem sound_of_messageType_tree : Registry.Reachable (treeRegistry {}) ∧
    (treeRegistry {}).messageType "Tree" = .ok treeType ∧ Sound (treeRegistry {}) treeType := by
  have htype : (treeRegistry {}).messageType "Tree" = .ok treeType := rfl
  exact ⟨Registry.reachable_tree {}, htype, sound_of_messageType (Registry.reachable_tree {}) htype⟩

end DynProto.Binary
