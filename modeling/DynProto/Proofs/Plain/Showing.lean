import DynProto.Proofs.Plain.RoundTrip

/-!
# Whether a record that can be written in binary can be shown

What is written in binary has values of the right sorts everywhere, so a plain object can only fail
to be written because a type is not declared. The two writers differ in when they look types up: for
octets the type of a message is looked up once there is a message, for a plain object the type of
the messages of a list or a map is looked up first, also if there are none
(`not_write_of_encode_emptyAlbum`). So a record that is written in binary is written as a plain
object exactly if the types of the messages of its empty lists and maps are declared, throughout
(`write_of_encode`).

The argument goes along the writer: `Hinges` says of a result that a condition decides whether it is
there, each step of the writer adds what it hinges on, and what a record hinges on comes out as the
condition for all its slots.
-/

namespace DynProto.Plain

open Wire (except_bind_eq_ok)

variable {α β : Type} {P Q : Prop}

/-! ## What a result hinges on -/

/-- A result that is there if a condition holds; otherwise a type is not declared. -/
def Hinges (P : Prop) (result : Except CodecError α) : Prop :=
  (P → ∃ a, result = .ok a) ∧ (¬ P → ∃ name, result = .error (.schema (.unknownType name)))

/-- A result that is there hinges on what holds. -/
theorem hinges_ok (h : P) (a : α) : Hinges P (.ok a) :=
  ⟨fun _ => ⟨a, rfl⟩, fun hnot => absurd h hnot⟩

/-- The condition may be put differently. -/
theorem Hinges.congr {result : Except CodecError α} (h : Hinges P result) (hiff : P ↔ Q) :
    Hinges Q result := by
  rw [← propext hiff]
  exact h

/-- A result in two steps hinges on what both hinge on. -/
theorem Hinges.bind {x : Except CodecError α} {f : α → Except CodecError β} (h : Hinges P x)
    (hf : ∀ a, x = .ok a → Hinges Q (f a)) : Hinges (P ∧ Q) (x >>= f) := by
  by_cases hP : P
  · obtain ⟨a, rfl⟩ := h.1 hP
    exact (hf a rfl).congr (and_iff_right hP).symm
  · obtain ⟨name, rfl⟩ := h.2 hP
    exact ⟨fun hboth => absurd hboth.1 hP, fun _ => ⟨name, rfl⟩⟩

/-- A function changes nothing about what a result hinges on. -/
theorem Hinges.map {x : Except CodecError α} (h : Hinges P x) (f : α → β) :
    Hinges P (x >>= fun a => .ok (f a)) :=
  (h.bind fun a _ => hinges_ok trivial (f a)).congr (iff_of_eq (and_true P))

/-- The results for the elements of a list hinge on what each of them hinges on. -/
theorem hinges_mapM {f : α → Except CodecError β} {P : α → Prop} {as : List α}
    (h : ∀ a ∈ as, Hinges (P a) (f a)) : Hinges (∀ a ∈ as, P a) (as.mapM f) := by
  induction as with
  | nil => exact hinges_ok (by simp) []
  | cons a as ih =>
    obtain ⟨ha, has⟩ := List.forall_mem_cons.1 h
    rw [List.mapM_cons]
    exact (ha.bind fun b _ => (ih has).map (b :: ·)).congr List.forall_mem_cons.symm

variable {registry : Registry} {owner : String} {field : Field}

/-- Looking up a type hinges on whether it is found. -/
theorem hinges_codecMessageType (registry : Registry) (name : String) :
    Hinges (∃ child, registry.codecMessageType name = .ok child)
      (registry.codecMessageType name) := by
  refine ⟨id, fun hnone => ?_⟩
  rcases hchild : registry.codecMessageType name with error | child
  · obtain ⟨undeclared, rfl⟩ := Registry.exists_unknownType_of_codecMessageType hchild
    exact ⟨undeclared, rfl⟩
  · exact absurd ⟨child, hchild⟩ hnone

/-! ## Empty lists and maps -/

/-- If a value is an empty list or map, for messages, then their type is found. -/
def EmptyLinked (registry : Registry) (kind : FieldKind) (v : Value) : Prop :=
  ∀ name, kind.messageName? = some name → v = .list [] ∨ v = .map [] →
    ∃ child, registry.codecMessageType name = .ok child

/-- The types of the messages of empty lists and maps are found. -/
def EmptiesLinked (registry : Registry) (type : MessageType) (record : Record) : Prop :=
  ∀ i field v, type.fields[i]? = some field → record.value? i = some v →
    EmptyLinked registry field.kind v

/-- What the plain object of a record hinges on: the types of the messages of empty lists and maps
are found, in the record and in all messages inside. -/
abbrev Showable (registry : Registry) (type : MessageType) (record : Record) : Prop :=
  record.Throughout registry (EmptiesLinked registry) type

/-- What the JSON values of the messages hinge on that the value of a field holds. -/
abbrev ShowableInside (registry : Registry) (kind : FieldKind) (v : Value) : Prop :=
  Record.Inside registry (EmptiesLinked registry) kind v

/-- What the JSON value of a field hinges on. -/
def ShowableValue (registry : Registry) (kind : FieldKind) (v : Value) : Prop :=
  EmptyLinked registry kind v ∧ ShowableInside registry kind v

variable {type : MessageType} {record : Record} {kind : FieldKind} {name : String} {v : Value}

/-- What a record hinges on, slot by slot. -/
theorem showable_iff :
    Showable registry type record ↔ ∀ i field v, type.fields[i]? = some field →
      record.value? i = some v → ShowableValue registry field.kind v := by
  constructor
  · exact fun h i field v hfield hv => ⟨h.holds i field v hfield hv, h.inside hfield hv⟩
  · intro h
    refine .intro (fun i field v hfield hv => (h i field v hfield hv).1) ?_
    intro i field v name slots child hfield hv hholds hchild
    exact (h i field v hfield hv).2 name slots child hholds hchild

/-- Where no messages are called for, nothing is looked up. -/
theorem showableValue_of_depth_eq_zero (hkind : kind.messageName? = none) (hdepth : v.depth = 0) :
    ShowableValue registry kind v := by
  refine ⟨fun name hname => ?_, Record.inside_of_depth_eq_zero hdepth⟩
  rw [hkind] at hname
  cases hname

/-- Where messages are called for, their type has to be found if there are none, and is found
anyway if there are some. -/
theorem showableValue_iff (hkind : kind.messageName? = some name)
    (h : v = .list [] ∨ v = .map [] ∨ ∃ child, registry.codecMessageType name = .ok child) :
    ShowableValue registry kind v ↔
      (∃ child, registry.codecMessageType name = .ok child) ∧ ShowableInside registry kind v := by
  refine and_congr_left fun _ => ⟨fun hlinked => ?_, fun hchild name' hname' _ => ?_⟩
  · rcases h with hlist | hmap | hchild
    · exact hlinked name hkind (.inl hlist)
    · exact hlinked name hkind (.inr hmap)
    · exact hchild
  · rw [hkind] at hname'
    cases hname'
    exact hchild

/-- A message hinges on what its record does. -/
theorem showableInside_message {child : MessageType} {slots : Record}
    (hchild : registry.codecMessageType name = .ok child) :
    ShowableInside registry (.message name false) (.message slots) ↔
      Showable registry child slots :=
  ⟨fun h => h name slots child .single hchild, Record.inside_message hchild⟩

/-- A list hinges on what its messages do. -/
theorem showableInside_list {vs : List Value} :
    ShowableInside registry (.message name true) (.list vs) ↔
      ∀ v ∈ vs, ShowableInside registry (.message name false) v := by
  constructor
  · rintro h v hv _ slots child ⟨⟩ hchild
    exact h name slots child (.element hv) hchild
  · rintro h _ slots child hholds hchild
    rcases hholds with _ | hmem
    exact h _ hmem name slots child .single hchild

/-- A map hinges on what the values of its entries do. -/
theorem showableInside_map {key : Scalar} {value : MapValue} {entries : List (MapKey × Value)} :
    ShowableInside registry (.map key value) (.map entries) ↔
      ∀ entry ∈ entries, ShowableInside registry value.fieldKind entry.2 := by
  constructor
  · intro h entry hentry name slots child hholds hchild
    exact h name slots child (hholds.of_entry hentry) hchild
  · rintro h _ slots child hholds hchild
    rcases hholds with _ | _ | hmem
    exact h _ hmem _ slots child .single hchild

/-! ## Scalars and enums -/

/-- A value of a scalar kind is written. -/
theorem exists_writeValue_of_fits {kind : Scalar} (h : v.fits kind = true) :
    ∃ json, writeValue v = .ok json := by
  cases v
  case enum | list | message | map => simp [Value.fits] at h
  all_goals exact ⟨_, rfl⟩

/-- A value that stands for an enum number is written. -/
theorem exists_writeValue_of_asEnum {n : Int32} (h : v.asEnum = .enum n) :
    ∃ json, writeValue v = .ok json := by
  cases v <;> first | exact ⟨_, rfl⟩ | simp [Value.asEnum] at h

/-- A list is written if its elements are. -/
theorem exists_writeValue_of_list {vs : List Value}
    (h : ∀ v ∈ vs, ∃ json, writeValue v = .ok json) :
    ∃ json, writeValue (.list vs) = .ok json := by
  obtain ⟨items, hitems⟩ := exists_forall₂ h
  rw [writeValue, writeValues_eq_mapM, mapM_eq_ok_iff.2 hitems]
  exact ⟨_, rfl⟩

/-- What is written as it is, for a field of a scalar or enum kind, hinges on nothing. -/
theorem hinges_writeField_of_writeValue (hdepth : v.depth = 0)
    (hjson : ∃ json, writeValue v = .ok json)
    (hkind : (∃ kind repeated, field.kind = .scalar kind repeated) ∨
      ∃ name repeated, field.kind = .enum name repeated) :
    Hinges (ShowableValue registry field.kind v) (writeField registry owner field v) := by
  obtain ⟨json, hjson⟩ := hjson
  rw [writeField_of_writeValue hjson hkind]
  refine hinges_ok (showableValue_of_depth_eq_zero ?_ hdepth) json
  rcases hkind with ⟨kind, repeated, hkind⟩ | ⟨name, repeated, hkind⟩ <;> rw [hkind] <;> rfl

/-! ## Lists and maps -/

/-- The writer is given records whose objects hinge on what the records do. -/
def HingesInside (registry : Registry) (kind : FieldKind) (v : Value) : Prop :=
  ∀ name slots child, kind.Holds v name slots → registry.codecMessageType name = .ok child →
    Hinges (Showable registry child slots) (write registry child slots)

/-- The messages of a list hinge on what each of them does. -/
theorem hinges_writeMessages {child : MessageType} {vs : List Value}
    (h : ∀ v ∈ vs, ∃ slots, v = .message slots ∧
      Hinges (ShowableInside registry (.message name false) v) (write registry child slots)) :
    Hinges (∀ v ∈ vs, ShowableInside registry (.message name false) v)
      (writeMessages registry owner field child vs) := by
  induction vs with
  | nil => exact hinges_ok (by simp) []
  | cons v vs ih =>
    obtain ⟨⟨slots, rfl, hslots⟩, hrest⟩ := List.forall_mem_cons.1 h
    rw [writeMessages]
    exact (hslots.bind fun json _ => (ih hrest).map (json :: ·)).congr List.forall_mem_cons.symm

/-- A list of messages hinges on their type being found, and on what each of them does. -/
theorem hinges_writeField_of_list (hkind : field.kind = .message name true) {vs : List Value}
    (hmessages : ∀ v ∈ vs, ∃ slots, v = .message slots)
    (hlinked : vs = [] ∨ ∃ child, registry.codecMessageType name = .ok child)
    (hinner : HingesInside registry (.message name true) (.list vs)) :
    Hinges (ShowableValue registry (.message name true) (.list vs))
      (writeField registry owner field (.list vs)) := by
  rw [showableValue_iff rfl (hlinked.imp (congrArg Value.list) .inr), showableInside_list,
    writeField.eq_def, hkind]
  refine (hinges_codecMessageType registry name).bind fun child hchild => ?_
  refine (hinges_writeMessages fun v hv => ?_).map Json.array
  obtain ⟨slots, rfl⟩ := hmessages v hv
  exact ⟨slots, rfl,
    (hinner name slots child (.element hv) hchild).congr (showableInside_message hchild).symm⟩

/-- The value of an entry hinges on what the message does that it holds. -/
theorem hinges_writeEntry {value : MapValue} {bytes : Bytes} {child? : Option MessageType}
    (hpiece : Binary.ValuePiece registry value v bytes)
    (hchild? : ∀ name child, value = .message name → registry.codecMessageType name = .ok child →
      child? = some child)
    (hinner : HingesInside registry value.fieldKind v) :
    Hinges (ShowableInside registry value.fieldKind v)
      (writeEntry registry owner field child? v) := by
  rcases hpiece with @⟨kind, v, content, hcontent⟩ | @⟨name, v, n, hn⟩ |
    @⟨name, child, slots, body, hchild, hbody⟩
  case scalar =>
    have hfits := Binary.fits_of_content hcontent
    obtain ⟨json, hjson⟩ := exists_writeValue_of_fits hfits
    rw [writeEntry_of_writeValue hjson]
    exact hinges_ok (Record.inside_of_depth_eq_zero (Value.depth_of_fits hfits)) json
  case enum =>
    obtain ⟨json, hjson⟩ := exists_writeValue_of_asEnum hn
    rw [writeEntry_of_writeValue hjson]
    exact hinges_ok (Record.inside_of_depth_eq_zero (Value.depth_of_asEnum hn)) json
  case message =>
    rw [hchild? name child rfl hchild, writeEntry.eq_def]
    exact (hinner name slots child .single hchild).congr (showableInside_message hchild).symm

/-- The entries of a map hinge on what their values do. -/
theorem hinges_writeEntries {key : Scalar} {value : MapValue} {entries : List (MapKey × Value)}
    {bodies : List Bytes} {child? : Option MessageType}
    (hbodies : List.Forall₂ (Binary.EntryPiece registry key value) entries bodies)
    (hchild? : ∀ name child, value = .message name → registry.codecMessageType name = .ok child →
      child? = some child)
    (hinner : HingesInside registry (.map key value) (.map entries)) :
    Hinges (ShowableInside registry (.map key value) (.map entries))
      (writeEntries registry owner field child? entries) := by
  rw [showableInside_map, writeEntries_eq_mapM]
  refine hinges_mapM fun entry hentry => ?_
  obtain ⟨body, _, hbody⟩ := exists_of_forall₂ hbodies hentry
  rcases hbody with ⟨_, hvalue⟩
  exact (hinges_writeEntry hvalue hchild? fun name slots child hholds hchild =>
    hinner name slots child (hholds.of_entry hentry) hchild).map _

/-- A map hinges on what the values of its entries do, and if they are messages, on their type being
found. -/
theorem hinges_writeField_of_map {key : Scalar} {value : MapValue}
    (hkind : field.kind = .map key value) {entries : List (MapKey × Value)} {bodies : List Bytes}
    (hbodies : List.Forall₂ (Binary.EntryPiece registry key value) entries bodies)
    (hinner : HingesInside registry (.map key value) (.map entries)) :
    Hinges (ShowableValue registry (.map key value) (.map entries))
      (writeField registry owner field (.map entries)) := by
  rcases value with kind | name | name
  case scalar | enum =>
    rw [writeField.eq_def, hkind]
    refine ((hinges_writeEntries hbodies (fun name child heq => ?_) hinner).map _).congr
      (and_iff_right fun name hname => ?_).symm
    · cases heq
    · cases hname
  case message =>
    have hlinked : Value.map entries = .list [] ∨ Value.map entries = .map [] ∨
        ∃ child, registry.codecMessageType name = .ok child := by
      -- the writer of octets has looked the type up at the first entry, if there is one
      rcases hbodies with _ | ⟨hentry, _⟩
      · exact .inr (.inl rfl)
      · rcases hentry with ⟨_, hvalue⟩
        rcases hvalue with _ | _ | ⟨hchild, _⟩
        exact .inr (.inr ⟨_, hchild⟩)
    rw [showableValue_iff rfl hlinked, writeField.eq_def, hkind]
    refine (hinges_codecMessageType registry name).bind fun child hchild => ?_
    refine (hinges_writeEntries hbodies ?_ hinner).map _
    rintro _ child' ⟨⟩ hchild'
    rw [hchild] at hchild'
    cases hchild'
    rfl

/-! ## Fields and records -/

/-- The value of a field that is written in binary hinges on what is called for where there are no
messages, and on the messages that there are. -/
theorem hinges_writeField {number : Nat} {bytes : Bytes}
    (hpiece : Binary.Piece registry number field.kind v bytes)
    (hinner : HingesInside registry field.kind v) :
    Hinges (ShowableValue registry field.kind v) (writeField registry owner field v) := by
  generalize hkind : field.kind = kind at hpiece hinner
  rcases hpiece with @⟨kind, v, content, hcontent⟩ | @⟨kind, vs, contents, _, hcontents⟩ |
    @⟨kind, vs, contents, _, hcontents⟩ | @⟨name, v, n, hn⟩ | @⟨name, vs, numbers, hnumbers⟩ |
    @⟨name, child, slots, body, hchild, hbody⟩ | @⟨name⟩ |
    @⟨name, child, vs, bodies, hchild, hbodies⟩ | @⟨key, value, entries, bodies, hbodies⟩
  case scalar =>
    have hfits := Binary.fits_of_content hcontent
    rw [← hkind]
    exact hinges_writeField_of_writeValue (Value.depth_of_fits hfits)
      (exists_writeValue_of_fits hfits) (.inl ⟨_, _, hkind⟩)
  case packed | unpacked =>
    have hfits := Binary.fits_of_contents hcontents
    rw [← hkind]
    exact hinges_writeField_of_writeValue
      (Value.depth_list_eq_zero fun v hv => Value.depth_of_fits (hfits v hv))
      (exists_writeValue_of_list fun v hv => exists_writeValue_of_fits (hfits v hv))
      (.inl ⟨_, _, hkind⟩)
  case enum =>
    rw [← hkind]
    exact hinges_writeField_of_writeValue (Value.depth_of_asEnum hn)
      (exists_writeValue_of_asEnum hn) (.inr ⟨_, _, hkind⟩)
  case enums =>
    rw [← hkind]
    refine hinges_writeField_of_writeValue (Value.depth_of_asEnums hnumbers)
      (exists_writeValue_of_list fun v hv => ?_) (.inr ⟨_, _, hkind⟩)
    obtain ⟨n, _, hn⟩ := exists_of_forall₂ hnumbers hv
    exact exists_writeValue_of_asEnum hn
  case message =>
    have hwrite : writeField registry owner field (.message slots)
        = registry.codecMessageType name >>= fun child => write registry child slots := by
      rw [writeField.eq_def, hkind]
      rfl
    rw [hwrite, hchild, showableValue_iff rfl (.inr (.inr ⟨child, hchild⟩)),
      and_iff_right ⟨child, hchild⟩, showableInside_message hchild]
    exact hinner name slots child .single hchild
  case noMessages =>
    -- nothing was looked up for the octets, so the type may still be missing
    exact hinges_writeField_of_list hkind (by simp) (.inl rfl) hinner
  case messages =>
    refine hinges_writeField_of_list hkind (fun v hv => ?_) (.inr ⟨child, hchild⟩) hinner
    obtain ⟨_, _, slots, hslots, _⟩ := exists_of_forall₂ hbodies hv
    exact ⟨slots, hslots⟩
  case map => exact hinges_writeField_of_map hkind hbodies hinner

/-- What is called for in each slot is called for in the first one and in the others. -/
theorem forall_slots_cons {P : FieldKind → Value → Prop} {fields : List Field}
    {slot : Option Value} {slots : Record} :
    (∀ i field' v, (field :: fields)[i]? = some field' → Record.value? (slot :: slots) i = some v →
      P field'.kind v) ↔
    (∀ v, slot = some v → P field.kind v) ∧
      ∀ i field' v, fields[i]? = some field' → slots.value? i = some v → P field'.kind v := by
  constructor
  · intro h
    refine ⟨?_, fun i field' v hfield hv => h (i + 1) field' v hfield hv⟩
    rintro v rfl
    exact h 0 field v rfl rfl
  · rintro ⟨hfirst, hrest⟩ (_ | i) field' v hfield hv
    · cases hfield
      exact hfirst v hv
    · exact hrest i field' v hfield hv

/-- The members of an object hinge on what each of the slots does. -/
theorem hinges_writeSlots {P : FieldKind → Value → Prop} {fields : List Field} {keys : List String}
    {slots : Record} (hkeys : keys.length = fields.length)
    (h : ∀ i field v, fields[i]? = some field → slots.value? i = some v →
      Hinges (P field.kind v) (writeField registry owner field v)) :
    Hinges (∀ i field v, fields[i]? = some field → slots.value? i = some v → P field.kind v)
      (writeSlots registry owner fields keys slots) := by
  induction slots generalizing fields keys with
  | nil =>
    have hnone : writeSlots registry owner fields keys [] = .ok [] := by
      cases fields <;> cases keys <;> rfl
    rw [hnone]
    refine hinges_ok (fun i field v _ hv => ?_) []
    cases hv
  | cons slot slots ih =>
    rcases fields with _ | ⟨field, fields⟩
    · have hnone : writeSlots registry owner [] keys (slot :: slots) = .ok [] := by
        cases keys <;> rfl
      rw [hnone]
      refine hinges_ok (fun i field v hfield _ => ?_) []
      cases hfield
    rcases keys with _ | ⟨key, keys⟩
    · cases hkeys
    have hrest := ih (Nat.succ.inj hkeys) fun i field v hfield hv =>
      h (i + 1) field v hfield hv
    rw [forall_slots_cons]
    cases slot with
    | none =>
      rw [writeSlots]
      refine hrest.congr (and_iff_right fun v hv => ?_).symm
      cases hv
    | some v =>
      rw [writeSlots]
      refine ((h 0 field v rfl rfl).bind fun json _ => hrest.map ((key, json) :: ·)).congr ?_
      exact and_congr_left fun _ => ⟨fun hfirst _ heq => Option.some.inj heq ▸ hfirst, fun hfirst =>
        hfirst v rfl⟩

/-- A record that is written in binary hinges on the types of the messages of its empty lists and
maps. -/
theorem hinges_write {bytes : Bytes} (hbytes : Binary.encode registry type record = .ok bytes) :
    Hinges (Showable registry type record) (write registry type record) := by
  induction record using Record.depth_induction generalizing type bytes with
  | h record ih =>
    obtain ⟨pieces, hpieces, _⟩ := Binary.encode_eq_ok_iff.1 hbytes
    unfold write objectOf
    rw [if_neg (Nat.not_lt.2 hpieces.length_le), showable_iff]
    refine (hinges_writeSlots type.length_plainKeys ?_).map _
    intro i field v hfield hv
    have hpiece := hpieces.piece i field v hfield hv
    refine hinges_writeField hpiece fun name slots child hholds hchild => ?_
    obtain ⟨body, hbody⟩ := hpiece.exists_encode hholds hchild
    exact ih slots (hholds.depth_lt_of_value? hv) hbody

/-- Where all references are found, nothing stands in the way of a plain object. -/
theorem showable_of_linked (hlinked : registry.Linked)
    (htype : registry.messageType name = .ok type) (record : Record) :
    Showable registry type record := by
  have hempties : ∀ name type, registry.messageType name = .ok type →
      ∀ record, EmptiesLinked registry type record := by
    intro name type htype record i field v hfield _ child hchild _
    have hfieldLinked := hlinked name type htype field (List.mem_of_getElem? hfield)
    rcases hkind : field.kind with _ | _ | _ | ⟨key, _ | _ | _⟩ <;>
      rw [hkind] at hchild hfieldLinked <;> cases hchild <;> exact hfieldLinked
  exact Record.throughout_of_forall (hempties name type htype record) fun name child slots hchild =>
    hempties name child (Registry.messageType_of_codecMessageType hchild) slots

/-- A record that is written in binary is written as a plain object exactly if the types of the
messages of its empty lists and maps are found, in it and in all messages inside; otherwise the
answer is that a type is not declared. -/
theorem write_of_encode {bytes : Bytes} (hbytes : Binary.encode registry type record = .ok bytes) :
    ((∃ json, write registry type record = .ok json) ↔
      record.Throughout registry (EmptiesLinked registry) type) ∧
    ∀ error, write registry type record = .error error →
      ∃ name, error = .schema (.unknownType name) := by
  obtain ⟨hshown, hrefused⟩ := hinges_write hbytes
  by_cases hshowable : Showable registry type record
  · obtain ⟨json, hjson⟩ := hshown hshowable
    refine ⟨iff_of_true ⟨json, hjson⟩ hshowable, fun error herror => ?_⟩
    rw [hjson] at herror
    cases herror
  · obtain ⟨name, hname⟩ := hrefused hshowable
    rw [hname]
    refine ⟨iff_of_false nofun hshowable, ?_⟩
    rintro _ ⟨⟩
    exact ⟨name, rfl⟩

/-- The tree has no child in its list, but trees are declared, so it has a plain object. -/
theorem write_of_encode_namedTree :
    ∃ json, write (treeRegistry {}) treeType namedTree = .ok json := by
  have hbytes : Binary.encode (treeRegistry {}) treeType namedTree
      = .ok [8, 7, 26, 10, 10, 4, 108, 101, 102, 116, 18, 2, 8, 5] := by cbv
  have htype : (treeRegistry {}).messageType "Tree" = .ok treeType := rfl
  exact (write_of_encode hbytes).1.2 (showable_of_linked (Registry.linked_tree {}) htype namedTree)

/-- A file with a type of albums, whose photos are not declared. -/
def albumFile : FileDescriptor where
  messages := [.mk "Album"
    [{ name := "photos", number := 1, repeated := true, typeCode := some 11,
       typeName := ".Photo" }] [] [] false]

/-- The type of albums. -/
def albumType : MessageType where
  name := "Album"
  fields := [⟨1, "photos", none, .message "Photo" true⟩]

/-- An album without photos is written in binary, but not as a plain object. -/
theorem not_write_of_encode_emptyAlbum :
    ∃ registry, Registry.addFile {} albumFile = .ok registry ∧
      registry.messageType "Album" = .ok albumType ∧
      Binary.encode registry albumType [some (.list [])] = .ok [] ∧
      write registry albumType [some (.list [])] = .error (.schema (.unknownType "Photo")) := by
  refine ⟨{ pending := [("Album", albumType)], listing := [⟨.root "Album", false⟩] }, rfl, rfl, ?_⟩
  exact ⟨by cbv, rfl⟩

end DynProto.Plain
