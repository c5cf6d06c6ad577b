import DynProto.Proofs.Registry.Reachable

/-!
# Keys of maps

Integers, truth values and texts are keys of maps, and nothing else is. In every registry that can
be reached all map fields of all message types keep to this (`mapKeyed_of_reachable`): a message
that stands for the entries of a map is refused if its key is of another kind, and a map field has
its keys from such a message, be it declared in the same file or in an earlier one.
-/

namespace DynProto

/-- The keys of all map fields are of kinds that keys may be of. -/
def MessageType.MapKeyed (type : MessageType) : Prop :=
  ∀ field ∈ type.fields, ∀ key value, field.kind = .map key value → key.isMapKey = true

/-- The keys of all maps in a draft are of kinds that keys may be of. -/
structure Draft.MapKeyed (draft : Draft) : Prop where
  /-- Those of map fields are. -/
  messages : ∀ type ∈ draft.messages, type.MapKeyed
  /-- Those of map entries are. -/
  mapEntries : ∀ binding ∈ draft.mapEntries, binding.2.key.isMapKey = true

namespace Registry

/-- The keys of all maps in a registry are of kinds that keys may be of. -/
structure MapKeyed (registry : Registry) : Prop where
  /-- Those of map fields are. -/
  messages : ∀ binding ∈ registry.messages, binding.2.MapKeyed
  /-- Those of map entries are. -/
  mapEntries : ∀ binding ∈ registry.mapEntries, binding.2.key.isMapKey = true

variable {registry next : Registry} {draft later : Draft} {mapOf? : String → Option MapEntry}

/-! ## Fields -/

/-- A map field has its keys from a map entry that is known. -/
theorem exists_mapEntry_of_fieldKind {declared : FieldDescriptor} {key : Scalar} {value : MapValue}
    (h : fieldKind mapOf? declared = .ok (.map key value)) :
    ∃ name, mapOf? name = some ⟨key, value⟩ := by
  unfold fieldKind at h
  split at h
  · cases h
  · split_ifs at h
    · obtain ⟨name, _, h⟩ := Wire.except_bind_eq_ok.1 h
      rcases hentry : mapOf? name with _ | entry
      · simp only [hentry] at h
        cases h
      · simp only [hentry] at h
        cases h
        exact ⟨name, hentry⟩
    · obtain ⟨name, _, h⟩ := Wire.except_bind_eq_ok.1 h
      cases h
    · split at h <;> cases h

/-- The kind of an accepted field is the one that was declared. -/
theorem fieldKind_of_field {declared : FieldDescriptor} {accepted : Field}
    (h : field mapOf? declared = .ok accepted) : fieldKind mapOf? declared = .ok accepted.kind := by
  unfold field at h
  split at h
  · obtain ⟨kind, hkind, h⟩ := Wire.except_bind_eq_ok.1 h
    cases h
    exact hkind
  · cases h

/-- Fields are accepted with keys that are allowed if all known map entries have such keys. -/
theorem mapKeyed_of_fields {declared : List FieldDescriptor} {fields : List Field} {name : String}
    (hknown : ∀ name entry, mapOf? name = some entry → entry.key.isMapKey = true)
    (h : declared.mapM (field mapOf?) = .ok fields) : MessageType.MapKeyed ⟨name, fields⟩ := by
  intro accepted haccepted key value hkind
  obtain ⟨declared, _, hdeclared⟩ := exists_of_forall₂ (mapM_eq_ok_iff.1 h).flip haccepted
  have hfield := fieldKind_of_field hdeclared
  rw [hkind] at hfield
  obtain ⟨name, hentry⟩ := exists_mapEntry_of_fieldKind hfield
  exact hknown name _ hentry

/-- A kind that is accepted for the keys of a map is allowed for keys. -/
theorem isMapKey_of_entryKey? {kind : FieldKind} {key : Scalar} (h : entryKey? kind = some key) :
    key.isMapKey = true := by
  unfold entryKey? at h
  split at h
  · split_ifs at h with hkey
    cases h
    exact hkey
  · cases h

/-- An optional value that is demanded is there. -/
theorem eq_some_of_elim {α : Type} {x : Option α} {error : SchemaError} {a : α}
    (h : x.elim (.error error) .ok = (.ok a : Except SchemaError α)) : x = some a := by
  cases x with
  | none => cases h
  | some b =>
    cases h
    rfl

/-- A message stands for map entries only with a key that is allowed. -/
theorem isMapKey_of_mapEntry {type : String} {fields : List FieldDescriptor} {entry : MapEntry}
    (h : mapEntry mapOf? type fields = .ok entry) : entry.key.isMapKey = true := by
  unfold mapEntry at h
  obtain ⟨keyIndex, _, h⟩ := Wire.except_bind_eq_ok.1 h
  obtain ⟨valueIndex, _, h⟩ := Wire.except_bind_eq_ok.1 h
  split_ifs at h
  obtain ⟨keyField, _, h⟩ := Wire.except_bind_eq_ok.1 h
  obtain ⟨key, hkey, h⟩ := Wire.except_bind_eq_ok.1 h
  obtain ⟨valueField, _, h⟩ := Wire.except_bind_eq_ok.1 h
  obtain ⟨value, _, h⟩ := Wire.except_bind_eq_ok.1 h
  cases h
  exact isMapKey_of_entryKey? (eq_some_of_elim hkey)

/-! ## Declarations -/

/-- The map entries that are known while a file is drafted have keys that are allowed. -/
theorem isMapKey_of_mapShape? (hregistry : registry.MapKeyed) (hdraft : draft.MapKeyed)
    {name : String} {entry : MapEntry} (h : registry.mapShape? draft name = some entry) :
    entry.key.isMapKey = true := by
  rcases Option.or_eq_some_iff.1 h with h | ⟨_, h⟩
  · exact hdraft.mapEntries _ (mem_of_lookup h)
  · exact hregistry.mapEntries _ (mem_of_lookup h)

/-- A declaration adds only maps with keys that are allowed. -/
theorem mapKeyed_step (hregistry : registry.MapKeyed) {package : Option QualifiedName}
    (hdraft : draft.MapKeyed) (hstep : Draft.Step registry package draft later) :
    later.MapKeyed := by
  cases hstep with
  | mapEntry _ _ hentry =>
    exact ⟨hdraft.messages, List.forall_mem_cons.2 ⟨isMapKey_of_mapEntry hentry, hdraft.mapEntries⟩⟩
  | message _ _ hfields =>
    refine ⟨fun type htype => ?_, hdraft.mapEntries⟩
    rcases List.mem_append.1 htype with htype | htype
    · exact hdraft.messages type htype
    · rw [List.mem_singleton.1 htype]
      exact mapKeyed_of_fields (fun _ _ => isMapKey_of_mapShape? hregistry hdraft) hfields
  | enum _ _ => exact ⟨hdraft.messages, hdraft.mapEntries⟩

/-- A file that is taken adds only maps with keys that are allowed. -/
theorem mapKeyed_addFile {file : FileDescriptor} (hregistry : registry.MapKeyed)
    (h : registry.addFile file = .ok next) : next.MapKeyed := by
  obtain ⟨_, draft, hdraft, rfl⟩ := addFile_eq_ok_iff.1 h
  have hkeyed : draft.MapKeyed :=
    (steps_draftFile hdraft).preserves Draft.MapKeyed (fun _ _ => mapKeyed_step hregistry)
      ⟨fun _ h => absurd h List.not_mem_nil, fun _ h => absurd h List.not_mem_nil⟩
  constructor
  · intro binding hbinding
    rcases mem_messages_commit.1 hbinding with ⟨type, htype, rfl⟩ | hold
    · exact hkeyed.messages type htype
    · exact hregistry.messages binding hold
  · intro binding hbinding
    rcases List.mem_append.1 hbinding with hnew | hold
    · exact hkeyed.mapEntries binding hnew
    · exact hregistry.mapEntries binding hold

/-- The keys of all maps in a registry that can be reached are of kinds that keys may be of. -/
theorem mapKeyed_of_reachable (h : Reachable registry) : registry.MapKeyed :=
  h.preserves MapKeyed
    (fun _ => ⟨fun _ h => absurd h List.not_mem_nil, fun _ h => absurd h List.not_mem_nil⟩)
    (fun _ _ _ => mapKeyed_addFile) fun _ h =>
      ⟨by simpa using h.messages, by simpa using h.mapEntries⟩

/-- So are those of a type that is found. -/
theorem MapKeyed.of_messageType (h : registry.MapKeyed) {name : String} {type : MessageType}
    (htype : registry.messageType name = .ok type) : type.MapKeyed :=
  h.messages _ (mem_messages_of_messageType htype)

end Registry

end DynProto
