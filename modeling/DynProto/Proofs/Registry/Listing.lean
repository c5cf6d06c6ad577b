import DynProto.Proofs.Name.Qualified
import DynProto.Proofs.Registry.Reachable

/-!
# What is listed and what is found

In a registry that comes about from declarations a type is found under its own full name, what is
listed as a message type is declared, and no full name is listed twice
(`wellListed_of_reachable`). The names listed after a set of files have no empty segments
(`empty_not_mem_segments_of_addSet`), because declarations without a name are left out and the
packages of the files that are taken are made of identifiers. Dots inside a segment are not
excluded.
-/

namespace DynProto.Registry

variable {registry next : Registry} {listing more : List Listed} {listed : Listed}

/-! ## Listing -/

/-- The full names of what is listed. -/
def fullNames (listing : List Listed) : List String :=
  listing.map fun listed => listed.name.fullName

/-- What is listed was listed before or is new. -/
theorem mem_of_mem_list {other : Listed} (h : other ∈ list listing listed) :
    other ∈ listing ∨ other = listed := by
  unfold list at h
  split_ifs at h
  · exact .inl h
  · rcases List.mem_append.1 h with h | h
    · exact .inl h
    · exact .inr (List.mem_singleton.1 h)

/-- A full name that is listed is not listed again. -/
theorem nodup_list (h : (fullNames listing).Nodup) (listed : Listed) :
    (fullNames (list listing listed)).Nodup := by
  unfold list
  split_ifs with hany
  · exact h
  · have hnew : listed.name.fullName ∉ fullNames listing := by
      simpa [fullNames] using hany
    have happend : fullNames (listing ++ [listed]) = fullNames listing ++ [listed.name.fullName] :=
      List.map_append
    rw [happend, List.nodup_append_comm, List.singleton_append, List.nodup_cons]
    exact ⟨hnew, h⟩

/-- What is listed in the end was listed before or is among what is new. -/
theorem mem_of_mem_foldl_list {other : Listed} (h : other ∈ more.foldl list listing) :
    other ∈ listing ∨ other ∈ more := by
  induction more generalizing listing with
  | nil => exact .inl h
  | cons first rest ih =>
    rcases ih h with h | h
    · rcases mem_of_mem_list h with h | rfl
      · exact .inl h
      · exact .inr List.mem_cons_self
    · exact .inr (List.mem_cons_of_mem first h)

/-- However much is listed, no full name is listed twice. -/
theorem nodup_foldl_list (h : (fullNames listing).Nodup) (more : List Listed) :
    (fullNames (more.foldl list listing)).Nodup := by
  induction more generalizing listing with
  | nil => exact h
  | cons first rest ih => exact ih (nodup_list h first)

/-- A message name is listed as that of a message. -/
theorem mem_messageNames {name : QualifiedName} :
    name ∈ registry.messageNames ↔ ⟨name, false⟩ ∈ registry.listing := by
  unfold messageNames
  rw [List.mem_map]
  constructor
  · rintro ⟨⟨name, isEnum⟩, hmem, rfl⟩
    obtain ⟨hmem, hkind⟩ := List.mem_filter.1 hmem
    cases isEnum with
    | false => exact hmem
    | true => cases hkind
  · intro h
    exact ⟨⟨name, false⟩, List.mem_filter.2 ⟨h, rfl⟩, rfl⟩

/-! ## Listed types are declared -/

/-- Every message that a draft lists is among its message types. -/
def DeclaredDraft (draft : Draft) : Prop :=
  ∀ name, ⟨name, false⟩ ∈ draft.listing → ∃ type ∈ draft.messages, type.name = name.fullName

/-- A declaration is listed together with its type. -/
theorem declaredDraft_step {package : Option QualifiedName} {draft later : Draft}
    (hdraft : DeclaredDraft draft) (hstep : Draft.Step registry package draft later) :
    DeclaredDraft later := by
  cases hstep with
  | mapEntry _ _ _ => exact hdraft
  | message _ _ _ =>
    intro name hname
    rcases List.mem_append.1 hname with hname | hname
    · obtain ⟨type, htype, hfull⟩ := hdraft name hname
      exact ⟨type, List.mem_append_left _ htype, hfull⟩
    · cases List.mem_singleton.1 hname
      exact ⟨_, List.mem_append_right _ (List.mem_singleton_self _), rfl⟩
  | enum _ _ =>
    intro name hname
    rcases List.mem_append.1 hname with hname | hname
    · exact hdraft name hname
    · cases List.mem_singleton.1 hname

/-- What the look-ups and the listing of a registry have to do with one another. -/
structure WellListed (registry : Registry) : Prop where
  /-- Message types are declared under their names. -/
  keyed : ∀ binding ∈ registry.messages, binding.2.name = binding.1
  /-- What is listed as a message type is declared. -/
  declared : ∀ name ∈ registry.messageNames, ∃ type, (name.fullName, type) ∈ registry.messages
  /-- No full name is listed twice. -/
  distinct : registry.typeNames.Nodup

/-- Taking a file keeps a registry well listed. -/
theorem wellListed_addFile {file : FileDescriptor} (h : WellListed registry)
    (hadd : registry.addFile file = .ok next) : WellListed next := by
  obtain ⟨_, draft, hdraft, rfl⟩ := addFile_eq_ok_iff.1 hadd
  have hdeclared : DeclaredDraft draft :=
    (steps_draftFile hdraft).preserves DeclaredDraft (fun _ _ => declaredDraft_step)
      fun _ h => absurd h List.not_mem_nil
  constructor
  · intro binding hbinding
    rcases mem_messages_commit.1 hbinding with ⟨type, _, rfl⟩ | hold
    · rfl
    · exact h.keyed binding hold
  · intro name hname
    rcases mem_of_mem_foldl_list (mem_messageNames.1 hname) with hold | hnew
    · obtain ⟨type, htype⟩ := h.declared name (mem_messageNames.2 hold)
      exact ⟨type, mem_messages_commit.2 (.inr htype)⟩
    · obtain ⟨type, htype, hfull⟩ := hdeclared name hnew
      exact ⟨type, mem_messages_commit.2 (.inl ⟨type, htype, by rw [hfull]⟩)⟩
  · exact nodup_foldl_list h.distinct draft.listing

/-- Every registry that can be reached is well listed. -/
theorem wellListed_of_reachable (h : Reachable registry) : WellListed registry :=
  h.preserves WellListed
    (fun _ => ⟨fun _ h => absurd h List.not_mem_nil, fun _ h => absurd h List.not_mem_nil,
      List.nodup_nil⟩)
    (fun _ _ _ => wellListed_addFile) fun _ h =>
      ⟨by simpa using h.keyed, by simpa using h.declared, by simpa [typeNames] using h.distinct⟩

namespace WellListed

/-- A message type that is found has the name that it is found under. -/
theorem name_of_messageType (h : WellListed registry) {name : String} {type : MessageType}
    (htype : registry.messageType name = .ok type) : type.name = Dotted.withoutLeadingDot name :=
  h.keyed _ (mem_messages_of_messageType htype)

/-- A listed message type whose full name has no leading dot is found under it. -/
theorem exists_messageType (h : WellListed registry) {name : QualifiedName}
    (hname : name ∈ registry.messageNames)
    (hdot : Dotted.withoutLeadingDot name.fullName = name.fullName) :
    ∃ type, registry.messageType name.fullName = .ok type := by
  obtain ⟨type, htype⟩ := h.declared name hname
  rw [messageType_eq, hdot]
  rcases hfound : registry.messages.lookup name.fullName with _ | found
  · have hnone := List.lookup_eq_none_iff.1 hfound _ htype
    simp at hnone
  · exact ⟨found, rfl⟩

/-- Listed message types with one full name are one. -/
theorem eq_of_fullName_eq (h : WellListed registry) {name other : QualifiedName}
    (hname : name ∈ registry.messageNames) (hother : other ∈ registry.messageNames)
    (heq : name.fullName = other.fullName) : name = other := by
  have hlisted := List.inj_on_of_nodup_map h.distinct (mem_messageNames.1 hname)
    (mem_messageNames.1 hother) heq
  exact congrArg Listed.name hlisted

end WellListed

/-! ## Segments of listed names -/

/-- All that a draft lists is declared in the package. -/
def ScopedDraft (package : Option QualifiedName) (draft : Draft) : Prop :=
  ∀ listed ∈ draft.listing, QualifiedName.Scope package (some listed.name)

/-- A declaration lists what it declares. -/
theorem scopedDraft_step {package : Option QualifiedName} {draft later : Draft}
    (hdraft : ScopedDraft package draft) (hstep : Draft.Step registry package draft later) :
    ScopedDraft package later := by
  cases hstep with
  | mapEntry _ _ _ => exact hdraft
  | message hparent hsymbol _ =>
    intro listed hlisted
    rcases List.mem_append.1 hlisted with hlisted | hlisted
    · exact hdraft listed hlisted
    · rw [List.mem_singleton.1 hlisted]
      exact hparent.declared hsymbol
  | enum hparent hsymbol =>
    intro listed hlisted
    rcases List.mem_append.1 hlisted with hlisted | hlisted
    · exact hdraft listed hlisted
    · rw [List.mem_singleton.1 hlisted]
      exact hparent.declared hsymbol

/-- The package of a file of a set that is taken has no empty segments. -/
theorem empty_not_mem_segments_of_isAccepted {file : FileDescriptor}
    (h : isAccepted file = true) {name : QualifiedName}
    (hname : QualifiedName.ofDotted? file.package = some name) : "" ∉ name.segments := by
  unfold isAccepted at h
  rw [Bool.and_eq_true, Bool.or_eq_true] at h
  rcases h.1 with hempty | hpackage
  · rw [String.isEmpty_iff.1 hempty] at hname
    cases hname
  · exact QualifiedName.empty_not_mem_segments_of_isPackageName hpackage hname

/-- No name that is listed after a set of files was taken has an empty segment. -/
theorem empty_not_mem_segments_of_addSet (options : Options) (buffer : Bytes) :
    ∀ listed ∈ (({ options } : Registry).addSet buffer).1.listing, "" ∉ listed.name.segments := by
  refine addSet_preserves (fun registry => ∀ listed ∈ registry.listing, "" ∉ listed.name.segments)
    ?_ buffer fun _ h => absurd h List.not_mem_nil
  intro registry file next haccepted h hadd listed hlisted
  obtain ⟨_, draft, hdraft, rfl⟩ := addFile_eq_ok_iff.1 hadd
  have hscoped : ScopedDraft (QualifiedName.ofDotted? file.package) draft :=
    (steps_draftFile hdraft).preserves (ScopedDraft _) (fun _ _ => scopedDraft_step)
      fun _ h => absurd h List.not_mem_nil
  rcases mem_of_mem_foldl_list hlisted with hold | hnew
  · exact h listed hold
  · exact (hscoped listed hnew).empty_not_mem_segments
      (fun _ => empty_not_mem_segments_of_isAccepted haccepted) listed.name rfl

end DynProto.Registry
