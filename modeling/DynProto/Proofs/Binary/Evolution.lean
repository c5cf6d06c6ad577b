import DynProto.Proofs.Binary.RoundTrip
import DynProto.Proofs.Record.Recast
import DynProto.Proofs.Wire.Skipping

/-!
# Reading as another type

Octets that can be read as a record of one type can be read as a record of a compatible type, and
the result is the record recast (`decode_recast`): a field that only the first type has is skipped,
which takes what reading it takes, and a field that both have is read in the same way, whatever its
place. It is only asked that the other type does not know more of the fields in the octets.

So types may evolve: where a type has all fields of another one, what was written as the larger one
is read as the smaller one, and the other way round (`decode_evolved`).
-/

namespace DynProto.Binary

open Wire

variable {registry : Registry} {source target : MessageType} {index place : Nat}
  {wireType : WireType} {kind : FieldKind} {occurrence : Occurrence} {bytes rest : Bytes}

/-! ## Places of occurrences -/

/-- The place of the field that occurs, if the type has it. -/
def Occurrence.place? : Occurrence → Option Nat
  | .unknown => none
  | .value index _ | .elements index _ | .nested index _ _ _ | .entry index _ _ _ => some index

/-- The same field at another place. -/
def Occurrence.moveTo (place : Nat) : Occurrence → Occurrence
  | .unknown => .unknown
  | .value _ v => .value place v
  | .elements _ vs => .elements place vs
  | .nested _ type repeated body => .nested place type repeated body
  | .entry _ key mapped body => .entry place key mapped body

/-- The place of a field is passed on and has no say in reading. -/
theorem moveTo_of_contentReader
    (h : (contentReader index wireType kind).run bytes = .ok (occurrence, rest)) :
    occurrence.place? = some index ∧ ∀ place,
      (contentReader place wireType kind).run bytes = .ok (occurrence.moveTo place, rest) := by
  rcases kind with ⟨kind, _ | _⟩ | ⟨name, _ | _⟩ | ⟨name, repeated⟩ | ⟨key, value⟩
  all_goals
    obtain ⟨content, hrun, rfl⟩ := Reader.run_map_eq_ok.1 h
    exact ⟨rfl, fun place => Reader.run_map_eq_ok.2 ⟨content, hrun, rfl⟩⟩

/-! ## Skipping what could be read -/

/-- Content with the expected wire type is skipped by the one that is found. -/
theorem skips_expecting {α : Type} {r : Reader Wire.Fault α} {expected : WireType}
    (h : r.Skips expected) (found : WireType) : (expecting expected found r).Skips found := by
  unfold expecting
  split_ifs with heq
  · rw [heq]
    exact h
  · exact Reader.skips_fail _

/-- So are elements, whether they are packed or not. -/
theorem skips_elementsReader {r : Reader Wire.Fault Value} {expected : WireType}
    (h : r.Skips expected) (found : WireType) (packable : Bool) :
    (elementsReader expected found packable r).Skips found := by
  unfold elementsReader
  split_ifs with hpacked
  · rw [Bool.and_eq_true, beq_iff_eq] at hpacked
    rw [hpacked.2]
    exact h.packed
  · exact (skips_expecting h found).map _

/-- The content of a field is skipped by its wire type, whatever the field is. -/
theorem skips_contentReader (index : Nat) (wireType : WireType) (kind : FieldKind) :
    (contentReader index wireType kind).Skips wireType := by
  have henum : enumReader.Skips .varint := (Reader.skips_varint.map _).map _
  have hbody : Reader.body.Skips .delimited := Reader.skips_block _
  rcases kind with ⟨kind, _ | _⟩ | ⟨name, _ | _⟩ | ⟨name, repeated⟩ | ⟨key, value⟩
  case scalar.false => exact (skips_expecting (Scalar.skips_reader kind) wireType).map _
  case scalar.true => exact (skips_elementsReader (Scalar.skips_reader kind) wireType _).map _
  case enum.false => exact (skips_expecting henum wireType).map _
  case enum.true => exact (skips_elementsReader henum wireType _).map _
  case message => exact (skips_expecting hbody wireType).map _
  case map => exact (skips_expecting hbody wireType).map _

/-! ## Occurrences -/

/-- What the next field of a message can be: a field that the type has, read by its kind, or one
that is skipped. -/
theorem run_fieldReader_eq_ok {type : MessageType} :
    (fieldReader type).run bytes = .ok (occurrence, rest) ↔
      ∃ key content, Reader.key.run bytes = .ok (key, content) ∧
        ((∃ index field, type.indexOfNumber? key.number = some index ∧
            type.fields[index]? = some field ∧
            (contentReader index key.wireType field.kind).run content = .ok (occurrence, rest)) ∨
          (type.indexOfNumber? key.number = none ∧
            (Reader.skip skipDepth key).run content = .ok ((), rest) ∧
            occurrence = .unknown)) := by
  show (Reader.key.run bytes >>= _) = _ ↔ _
  rw [except_bind_eq_ok, Prod.exists]
  refine exists₂_congr fun key content => and_congr_right fun _ => ?_
  rcases hindex : type.indexOfNumber? key.number with _ | index
  · simp only [hindex, Option.bind_none, Reader.run_map_eq_ok, reduceCtorEq, false_and,
      exists_false, false_or, true_and]
    exact ⟨fun ⟨_, hrun, heq⟩ => ⟨hrun, heq.symm⟩, fun ⟨hrun, heq⟩ => ⟨(), hrun, heq.symm⟩⟩
  · obtain ⟨field, hfield, _⟩ := MessageType.exists_of_indexOfNumber? hindex
    simp [hindex, hfield]

/-- A field that occurs in octets as a record of one type, and what the same field is as a record of
another type: at the place of the field with its number, or unknown where there is none. -/
inductive Occurrence.Recast (source target : MessageType) : Occurrence → Occurrence → Prop
  /-- Neither type has the field. -/
  | unknown : Recast source target .unknown .unknown
  /-- Both types have the field. -/
  | moved {i j : Nat} {f g : Field} {occurrence : Occurrence} (hf : source.fields[i]? = some f)
    (hg : target.fields[j]? = some g) (hnumber : f.number = g.number)
    (hplace : occurrence.place? = some i) : Recast source target occurrence (occurrence.moveTo j)
  /-- Only the first type has the field. -/
  | dropped {i : Nat} {f : Field} {occurrence : Occurrence} (hf : source.fields[i]? = some f)
    (hnone : target.indexOfNumber? f.number = none) (hplace : occurrence.place? = some i) :
    Recast source target occurrence .unknown

/-- Every number that the first type does not know is unknown to the second type. -/
def KnowsLess (target source : MessageType) : Prop :=
  ∀ number, source.indexOfNumber? number = none → target.indexOfNumber? number = none

/-- The next field ends at the same octet for both types. -/
theorem fieldReader_recast (h : source.Compatible target)
    (hunknown : occurrence = .unknown → KnowsLess target source)
    (hrun : (fieldReader source).run bytes = .ok (occurrence, rest)) :
    ∃ occurrence', (fieldReader target).run bytes = .ok (occurrence', rest) ∧
      Occurrence.Recast source target occurrence occurrence' := by
  obtain ⟨key, content, hkey, ⟨i, f, hi, hf, hcontent⟩ | ⟨hi, hskip, rfl⟩⟩ :=
    run_fieldReader_eq_ok.1 hrun
  · obtain ⟨f', hf', hnumber⟩ := MessageType.exists_of_indexOfNumber? hi
    rw [hf] at hf'
    cases hf'
    obtain ⟨hplace, hmove⟩ := moveTo_of_contentReader hcontent
    rcases hj : target.indexOfNumber? key.number with _ | j
    · have hskip := run_skip (skips_contentReader _ _ _ _ _ _ hcontent)
      rw [← hnumber] at hj
      exact ⟨.unknown,
        run_fieldReader_eq_ok.2 ⟨key, content, hkey, .inr ⟨hnumber ▸ hj, hskip, rfl⟩⟩,
        .dropped hf hj hplace⟩
    · obtain ⟨g, hg, hnumber'⟩ := MessageType.exists_of_indexOfNumber? hj
      have heq : f.number = g.number := hnumber.trans hnumber'.symm
      have hkind := h.kind_eq f (List.mem_of_getElem? hf) g (List.mem_of_getElem? hg) heq
      exact ⟨occurrence.moveTo j, run_fieldReader_eq_ok.2
        ⟨key, content, hkey, .inl ⟨j, g, hj, hg, hkind ▸ hmove j⟩⟩, .moved hf hg heq hplace⟩
  · have hj := hunknown rfl key.number hi
    exact ⟨.unknown, run_fieldReader_eq_ok.2 ⟨key, content, hkey, .inr ⟨hj, hskip, rfl⟩⟩, .unknown⟩

/-- The same fields occur for both types, and nothing is wrong for the second type if nothing is
wrong for the first. -/
theorem occurrences_recast (h : source.Compatible target)
    (hunknown : .unknown ∈ (occurrences source bytes).1 → KnowsLess target source)
    (hfault : (occurrences source bytes).2 = none) :
    ∃ fields, occurrences target bytes = (fields, none) ∧
      List.Forall₂ (Occurrence.Recast source target) (occurrences source bytes).1 fields := by
  induction hn : bytes.length using Nat.strongRecOn generalizing bytes with
  | ind n ih =>
    rcases hbytes : bytes with _ | ⟨b, more⟩
    · rw [occurrences_nil, occurrences_nil]
      exact ⟨[], rfl, .nil⟩
    · rw [← hbytes]
      rcases hrun : (fieldReader source).run bytes with fault | ⟨occurrence, rest⟩
      · rw [occurrences_eq, hrun, hbytes] at hfault
        cases hfault
      · rw [occurrences_of_run hrun] at hunknown hfault ⊢
        obtain ⟨occurrence', hrun', hrecast⟩ := fieldReader_recast h
          (fun heq => hunknown (List.mem_cons.2 (.inl heq.symm))) hrun
        have hlt := (fieldReader source).shorter hrun
        obtain ⟨fields, hfields, hall⟩ := ih rest.length (by omega)
          (fun hmem => hunknown (List.mem_cons_of_mem _ hmem)) hfault rfl
        rw [occurrences_of_run hrun', hfields]
        exact ⟨occurrence' :: fields, rfl, .cons hrecast hall⟩

/-! ## Steps -/

variable {nested : Nested} {record record' next : Record}

/-- An update goes the same way for another type, at another place with the same slot. -/
theorem update_moveTo {f f' : Option Value → Except CodecError Value}
    (hf : ∀ slot v, f slot = .ok v → f' slot = .ok v)
    (hslot : ∀ slot, record[index]? = some slot → record'[place]? = some slot)
    (h : update source record index f = .ok next) :
    ∃ v, index < record.length ∧ next = record.set index (some v) ∧
      update target record' place f' = .ok (record'.set place (some v)) := by
  obtain ⟨slot, v, hrecord, hv, rfl⟩ := update_eq_ok h
  refine ⟨v, (List.getElem?_eq_some_iff.1 hrecord).1, rfl, ?_⟩
  rw [update_of_getElem? (hslot slot hrecord), hf slot v hv]
  rfl

/-- Fields of the same type under another name occur in the same octets. -/
theorem occurrences_congr {type type' : MessageType} (h : type.fields = type'.fields)
    (bytes : Bytes) : occurrences type bytes = occurrences type' bytes := by
  have hreader : fieldReader type = fieldReader type' := by
    unfold fieldReader MessageType.indexOfNumber?
    rw [h]
  induction hn : bytes.length using Nat.strongRecOn generalizing bytes with
  | ind n ih =>
    rw [occurrences_eq, occurrences_eq type', hreader]
    split_ifs
    · rfl
    · rcases hrun : (fieldReader type').run bytes with fault | ⟨occurrence, rest⟩
      · rfl
      · have hlt := (fieldReader type').shorter hrun
        simp only
        rw [ih rest.length (by omega) rest rfl]

/-- The fields of a map entry are applied in the same way whatever message holds the map. -/
theorem applyPlain_rename {owner owner' : String} {key : Scalar} {value : MapValue}
    (h : applyPlain nested registry (entryType owner key value) record occurrence = .ok next) :
    applyPlain nested registry (entryType owner' key value) record occurrence = .ok next := by
  cases occurrence
  case unknown | entry => exact h
  all_goals
    obtain ⟨v, _, rfl, hupdate⟩ := update_moveTo (fun _ _ hv => hv) (fun _ hslot => hslot) h
    exact hupdate

/-- A map entry is read in the same way whatever message holds the map. -/
theorem foldFields_rename {owner : String} (owner' : String) {key : Scalar} {value : MapValue}
    (h : foldFields (entryType owner key value)
      (applyPlain nested registry (entryType owner key value)) record bytes = .ok next) :
    foldFields (entryType owner' key value)
      (applyPlain nested registry (entryType owner' key value)) record bytes = .ok next := by
  have hfields : (entryType owner key value).fields = (entryType owner' key value).fields := rfl
  rw [foldFields_eq_ok_iff, occurrences_congr hfields] at h
  have hstep : ∀ s t a b next, s = t → a = b →
      applyPlain nested registry (entryType owner key value) s a = .ok next → ∃ next',
        applyPlain nested registry (entryType owner' key value) t b = .ok next' ∧ next = next' := by
    rintro s _ a _ next rfl rfl hnext
    exact ⟨next, applyPlain_rename hnext, rfl⟩
  obtain ⟨last, hlast, rfl⟩ :=
    foldlM_simulates hstep (List.forall₂_same.2 fun _ _ => rfl) rfl h.2
  exact foldFields_eq_ok_iff.2 ⟨h.1, hlast⟩

/-- The key and the value of an entry are found in the same way whatever message holds the map. -/
theorem entryOf_rename {owner owner' : String} {key : Scalar} {value : MapValue}
    {entry : MapKey × Value} (h : entryOf registry owner key value record = .ok entry) :
    entryOf registry owner' key value record = .ok entry := by
  obtain ⟨k, v⟩ := entry
  have hkey := (entryOf_eq_ok h).1
  unfold entryOf at h ⊢
  rw [hkey] at h ⊢
  exact h

/-- Applying an occurrence goes the same way for another type, at another place with the same
slot. -/
theorem apply_moveTo (target : MessageType) (hplace : occurrence.place? = some index)
    (hslot : ∀ slot, record[index]? = some slot → record'[place]? = some slot)
    (h : apply nested registry source record occurrence = .ok next) :
    ∃ v, index < record.length ∧ next = record.set index (some v) ∧
      apply nested registry target record' (occurrence.moveTo place)
        = .ok (record'.set place (some v)) := by
  cases occurrence <;> cases hplace
  case entry key value body =>
    refine update_moveTo (fun slot v hv => ?_) hslot h
    obtain ⟨inner, hinner, hv⟩ := except_bind_eq_ok.1 hv
    obtain ⟨entry, hentry, hv⟩ := except_bind_eq_ok.1 hv
    have hinner' := foldFields_rename target.name hinner
    rw [except_bind_eq_ok]
    refine ⟨inner, hinner', ?_⟩
    rw [except_bind_eq_ok]
    exact ⟨entry, entryOf_rename hentry, hv⟩
  all_goals exact update_moveTo (fun _ _ hv => hv) hslot h

/-- Applying an occurrence to a recast record gives the recast record. -/
theorem apply_recast (h : source.Compatible target) {occurrence' : Occurrence}
    (hrecast : Occurrence.Recast source target occurrence occurrence')
    (hnext : apply nested registry source record occurrence = .ok next) :
    apply nested registry target (record.recast source target) occurrence'
      = .ok (next.recast source target) := by
  rcases hrecast with _ | @⟨i, j, f, g, _, hf, hg, hnumber, hplace⟩ | @⟨i, f, _, hf, hnone, hplace⟩
  case unknown =>
    cases hnext
    rfl
  case moved =>
    have hslot : ∀ slot, record[i]? = some slot →
        (record.recast source target)[j]? = some slot := by
      intro slot hslot
      rw [Record.getElem?_recast_of_number h hf hg hnumber, Record.value?, hslot]
      rfl
    obtain ⟨v, hlt, rfl, happly⟩ := apply_moveTo target hplace hslot hnext
    rw [happly, Record.recast_set h hf hg hnumber hlt]
  case dropped =>
    obtain ⟨v, _, rfl, _⟩ := apply_moveTo source hplace (fun _ hslot => hslot) hnext
    rw [Record.recast_set_of_none hf hnone]
    rfl

/-! ## Messages -/

/-- What is read from octets as a record of one type is read as a record of a compatible type, and
the result is recast. -/
theorem merge_recast (h : source.Compatible target) {levels : Nat} {result : Record}
    (hunknown : .unknown ∈ (occurrences source bytes).1 → KnowsLess target source)
    (hmerge : merge registry levels source record bytes = .ok result) :
    merge registry levels target (record.recast source target) bytes
      = .ok (result.recast source target) := by
  cases levels with
  | zero => cases hmerge
  | succ levels =>
    obtain ⟨hfault, hfold⟩ := foldFields_eq_ok_iff.1 hmerge
    obtain ⟨fields, hfields, hall⟩ := occurrences_recast h hunknown hfault
    have hstep : ∀ s t a b next, t = Record.recast source target s →
        Occurrence.Recast source target a b →
        apply (merge registry levels) registry source s a = .ok next → ∃ next',
          apply (merge registry levels) registry target t b = .ok next' ∧
            next' = Record.recast source target next := by
      rintro s _ a b next rfl hrecast hnext
      exact ⟨_, apply_recast h hrecast hnext, rfl⟩
    obtain ⟨last, hlast, rfl⟩ := foldlM_simulates hstep hall rfl hfold
    refine foldFields_eq_ok_iff.2 ?_
    rw [hfields]
    exact ⟨rfl, hlast⟩

/-- What octets stand for as a record of one type, they stand for as a record of a compatible type
that does not know more of the fields in them: the record recast. -/
theorem decode_recast (h : source.Compatible target) {result : Record}
    (hunknown : .unknown ∈ (occurrences source bytes).1 → KnowsLess target source)
    (hdecode : decode registry source bytes = .ok result) :
    decode registry target bytes = .ok (result.recast source target) := by
  have hmerge := merge_recast h hunknown hdecode
  rwa [Record.recast_defaultRecord h] at hmerge

/-! ## Written and read as another type -/

/-- Only fields that the type has occur in what was written. -/
theorem unknown_not_mem_of_encode (h : record.Throughout registry Readable source)
    (hbytes : encode registry source record = .ok bytes) (hlength : bytes.length < lengthBound) :
    .unknown ∉ (occurrences source bytes).1 := by
  obtain ⟨fields, hyields, _⟩ := exists_fields_of_encode h
    (fun _ _ hslots => merge_encode_into 0 hslots)
    (Record.wellFormed_defaultRecord registry source) hbytes hlength
  rw [hyields.occurrences_eq]
  exact hyields.known

/-- What was written as a record of one type is read as a record of any compatible type. -/
theorem decode_recast_of_encode (h : source.Compatible target)
    (hreadable : record.Throughout registry Readable source)
    (hbytes : encode registry source record = .ok bytes) (hlength : bytes.length < lengthBound)
    (hdepth : record.depth ≤ registry.options.recursionLimit.toNat) :
    decode registry target bytes
      = .ok ((registry.canonical source record).recast source target) := by
  have hread := merge_encode (registry.options.recursionLimit.toNat + 1) hreadable bytes hbytes
    hlength
  rw [if_pos (Nat.lt_succ_of_le hdepth)] at hread
  exact decode_recast h
    (fun hmem => absurd hmem (unknown_not_mem_of_encode hreadable hbytes hlength)) hread

/-- A type and one that has its fields and possibly others: octets that are read as the larger type
are read as the smaller one, without the other fields; what was written as the smaller type is read
as the larger one, with defaults for the other fields. -/
theorem decode_evolved {old new : MessageType} {name : String} (hregistry : registry.Reachable)
    (hold : registry.messageType name = .ok old)
    (hfields : (old.fields.map Field.signature).Sublist (new.fields.map Field.signature))
    (hnodup : (new.fields.map Field.number).Nodup) :
    (∀ bytes record, decode registry new bytes = .ok record →
      decode registry old bytes = .ok (record.recast new old)) ∧
    ∀ record bytes, (∀ child, registry.Refers old child →
        (child.fields.map Field.number).Nodup) →
      encode registry old record = .ok bytes → bytes.length < lengthBound →
      record.depth ≤ registry.options.recursionLimit.toNat →
      decode registry new bytes = .ok ((registry.canonical old record).recast old new) := by
  have hcompatible := MessageType.compatible_of_sublist hfields hnodup
  have hless : KnowsLess old new :=
    fun _ h => MessageType.indexOfNumber?_eq_none_of_sublist hfields h
  constructor
  · intro bytes record hdecode
    exact decode_recast hcompatible.symm (fun _ => hless) hdecode
  · intro record bytes hdistinct hbytes hlength hdepth
    have hreadable := throughout_readable_of_refers hregistry hold hdistinct record
    exact decode_recast_of_encode hcompatible hreadable hbytes hlength hdepth

end DynProto.Binary

namespace DynProto

/-! ## A schema of notes -/

/-- A file with a type of notes and one of notes with a rank. -/
def noteFile : FileDescriptor where
  messages := [
    .mk "Note" [{ name := "id", number := 1, typeCode := some 5 },
      { name := "text", number := 3, typeCode := some 9 }] [] [] false,
    .mk "RankedNote" [{ name := "id", number := 1, typeCode := some 5 },
      { name := "rank", number := 2, typeCode := some 13 },
      { name := "text", number := 3, typeCode := some 9 }] [] [] false]

/-- The type of notes. -/
def noteType : MessageType where
  name := "Note"
  fields := [⟨1, "id", none, .scalar .int32 false⟩, ⟨3, "text", none, .scalar .string false⟩]

/-- The type of notes with a rank. -/
def rankedNoteType : MessageType where
  name := "RankedNote"
  fields := [⟨1, "id", none, .scalar .int32 false⟩, ⟨2, "rank", none, .scalar .uint32 false⟩,
    ⟨3, "text", none, .scalar .string false⟩]

/-- The registry with the types of notes. -/
def noteRegistry : Registry where
  pending := [("RankedNote", rankedNoteType), ("Note", noteType)]
  listing := [⟨.root "Note", false⟩, ⟨.root "RankedNote", false⟩]

/-- The types of notes come about by taking their file. -/
theorem Registry.reachable_note : noteRegistry.Reachable :=
  .addFile (.empty {}) (show Registry.addFile _ noteFile = .ok noteRegistry from rfl)

/-- The fields of notes have distinct numbers. -/
theorem Registry.distinctNumbers_note : noteRegistry.DistinctNumbers :=
  distinctNumbers_of_messages (by decide)

/-- A note with a rank is read as a note, and a note as one with the rank zero. -/
theorem Binary.decode_evolved_note :
    Binary.decode noteRegistry noteType [8, 7, 16, 3, 26, 1, 97]
        = .ok [some (.i32 7), some (.string "a")] ∧
      Binary.decode noteRegistry rankedNoteType [8, 7, 26, 1, 97]
        = .ok [some (.i32 7), some (.u32 0), some (.string "a")] := by
  have hold : noteRegistry.messageType "Note" = .ok noteType := rfl
  have hfields : (noteType.fields.map Field.signature).Sublist
      (rankedNoteType.fields.map Field.signature) := by decide
  have hevolved := decode_evolved Registry.reachable_note hold hfields (by decide)
  constructor
  · exact hevolved.1 _ _ (show Binary.decode noteRegistry rankedNoteType [8, 7, 16, 3, 26, 1, 97]
      = .ok [some (.i32 7), some (.u32 3), some (.string "a")] by cbv)
  · exact hevolved.2 _ _ (fun _ => Registry.distinctNumbers_note.nodup_of_refers hold)
      (show Binary.encode noteRegistry noteType [some (.i32 7), some (.string "a")] = _ by cbv)
      (by decide) (by decide)

end DynProto
