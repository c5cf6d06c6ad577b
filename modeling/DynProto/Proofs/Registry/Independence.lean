import DynProto.Proofs.Registry.Listing
import DynProto.Proofs.Registry.References

/-!
# Files that may be taken in either order

Two files are independent if they declare no name in common and neither refers to map entries of
the other; they may well refer to each other's messages and enums. Such files can be taken in one
order exactly if they can be taken in the other, and the registries that result answer alike, before
they are closed and after that (`addFile_comm`). The same goes for any number of files of which any
two are independent, in any two orders (`exists_agrees_of_perm`).

The second file is drafted in a registry that holds the first one. Its draft is the same as without
it, because it depends on references alone (`draftFile_commit`), and two drafts without a common
name can be committed in either order (`agrees_commit_commit`).
-/

namespace DynProto

/-- Two files that declare no name in common and do not refer to each other's map entries. -/
structure FileDescriptor.Independent (file other : FileDescriptor) : Prop where
  /-- No name of a message, an enum or map entries is declared in both. -/
  names : file.names.Disjoint other.names
  /-- No field or map value of the first refers to map entries of the second. -/
  references : file.references.Disjoint other.mapEntryNames
  /-- No field or map value of the second refers to map entries of the first. -/
  backReferences : other.references.Disjoint file.mapEntryNames

/-- Independence has no direction. -/
theorem FileDescriptor.Independent.symm {file other : FileDescriptor}
    (h : file.Independent other) : other.Independent file :=
  ⟨h.names.symm, h.backReferences, h.references⟩

namespace Registry

/-- Two registries that answer alike; only the order of the listing may differ. -/
structure Agrees (registry other : Registry) : Prop where
  /-- The codecs have the same settings. -/
  options : registry.options = other.options
  /-- The same message types are found. -/
  messageType : ∀ name, registry.messageType name = other.messageType name
  /-- The same enums are found. -/
  enumType : ∀ name, registry.enumType name = other.enumType name
  /-- The same map entries are known to the files that come. -/
  mapEntry : ∀ name, registry.mapEntries.lookup name = other.mapEntries.lookup name
  /-- The same types are listed. -/
  listing : registry.listing.Perm other.listing
  /-- Both are open or both are closed. -/
  resolved : registry.resolved = other.resolved

variable {registry next last : Registry} {listing more others : List Listed} {a b : Listed}
  {file other : FileDescriptor} {draft later : Draft}

/-- A registry answers like itself. -/
theorem Agrees.refl (registry : Registry) : registry.Agrees registry :=
  ⟨rfl, fun _ => rfl, fun _ => rfl, fun _ => rfl, .refl _, rfl⟩

/-- What answers alike with a registry in between does so without it. -/
theorem Agrees.trans (h : registry.Agrees next) (hlast : next.Agrees last) :
    registry.Agrees last where
  options := h.options.trans hlast.options
  messageType name := (h.messageType name).trans (hlast.messageType name)
  enumType name := (h.enumType name).trans (hlast.enumType name)
  mapEntry name := (h.mapEntry name).trans (hlast.mapEntry name)
  listing := h.listing.trans hlast.listing
  resolved := h.resolved.trans hlast.resolved

/-- Registries that answer alike do so after they are closed. -/
theorem Agrees.resolve {other : Registry} (h : registry.Agrees other) :
    registry.resolve.Agrees other.resolve where
  options := by rw [options_resolve, options_resolve, h.options]
  messageType name := by rw [messageType_resolve, messageType_resolve, h.messageType]
  enumType name := by rw [enumType_resolve, enumType_resolve, h.enumType]
  mapEntry name := by rw [mapEntries_resolve, mapEntries_resolve, h.mapEntry]
  listing := by
    rw [listing_resolve, listing_resolve]
    exact h.listing
  resolved := by rw [resolved_resolve, resolved_resolve]

/-! ## Bindings without a common name -/

/-- Of bindings without a common name it does not matter which are newer. -/
theorem lookup_append_comm {α : Type} {front middle : Bindings α}
    (h : ∀ x ∈ front, ∀ y ∈ middle, x.1 ≠ y.1) (back : Bindings α) (name : String) :
    (front ++ (middle ++ back)).lookup name = (middle ++ (front ++ back)).lookup name := by
  rw [List.lookup_append, List.lookup_append, List.lookup_append, List.lookup_append]
  rcases hfront : front.lookup name with _ | x
  · rw [Option.none_or, Option.none_or]
  · have hmiddle : middle.lookup name = none := by
      refine List.lookup_eq_none_iff.2 fun y hy => ?_
      have hne : name ≠ y.1 := h _ (mem_of_lookup hfront) y hy
      simpa using hne
    rw [hmiddle]
    rfl

/-- So it is for types that are bound to their names. -/
theorem lookup_named_append_comm {α : Type} {nameOf : α → String} {front middle : List α}
    (h : ∀ a ∈ front, ∀ b ∈ middle, nameOf a ≠ nameOf b) (back : Bindings α) (name : String) :
    ((front.map fun a => (nameOf a, a)).reverse ++
        ((middle.map fun b => (nameOf b, b)).reverse ++ back)).lookup name =
      ((middle.map fun b => (nameOf b, b)).reverse ++
        ((front.map fun a => (nameOf a, a)).reverse ++ back)).lookup name := by
  apply lookup_append_comm
  intro x hx y hy
  obtain ⟨a, ha, rfl⟩ := List.mem_map.1 (List.mem_reverse.1 hx)
  obtain ⟨b, hb, rfl⟩ := List.mem_map.1 (List.mem_reverse.1 hy)
  exact h a ha b hb

/-! ## Listings without a common name -/

/-- A name that is listed is not listed again. -/
theorem list_of_mem (h : a.name.fullName ∈ fullNames listing) : list listing a = listing := by
  unfold list
  rw [if_pos (by simpa [fullNames] using h)]

/-- A name that is not listed comes last. -/
theorem list_of_not_mem (h : a.name.fullName ∉ fullNames listing) :
    list listing a = listing ++ [a] := by
  unfold list
  rw [if_neg (by simpa [fullNames] using h)]

/-- A further entry adds its full name. -/
theorem mem_fullNames_append {name : String} :
    name ∈ fullNames (listing ++ [b]) ↔ name ∈ fullNames listing ∨ name = b.name.fullName := by
  simp [fullNames]

/-- Types with different full names are listed in either order. -/
theorem perm_list_comm (h : a.name.fullName ≠ b.name.fullName) (listing : List Listed) :
    (list (list listing a) b).Perm (list (list listing b) a) := by
  by_cases ha : a.name.fullName ∈ fullNames listing
  · have ha' : a.name.fullName ∈ fullNames (list listing b) := by
      by_cases hb : b.name.fullName ∈ fullNames listing
      · rwa [list_of_mem hb]
      · rw [list_of_not_mem hb]
        exact mem_fullNames_append.2 (.inl ha)
    rw [list_of_mem ha, list_of_mem ha']
  · have ha' : a.name.fullName ∉ fullNames (list listing b) := by
      by_cases hb : b.name.fullName ∈ fullNames listing
      · rwa [list_of_mem hb]
      · rw [list_of_not_mem hb, mem_fullNames_append]
        exact fun hor => hor.elim ha h
    rw [list_of_not_mem ha, list_of_not_mem ha']
    by_cases hb : b.name.fullName ∈ fullNames listing
    · rw [list_of_mem hb, list_of_mem (mem_fullNames_append.2 (.inl hb))]
    · have hb' : b.name.fullName ∉ fullNames (listing ++ [a]) := by
        rw [mem_fullNames_append]
        exact fun hor => hor.elim hb h.symm
      rw [list_of_not_mem hb, list_of_not_mem hb', List.append_assoc, List.append_assoc]
      exact (List.Perm.swap b a []).append_left listing

/-- What is listed does not depend on the order of what was listed before. -/
theorem perm_list (h : listing.Perm more) (a : Listed) : (list listing a).Perm (list more a) := by
  have hmem : a.name.fullName ∈ fullNames listing ↔ a.name.fullName ∈ fullNames more :=
    (h.map _).mem_iff
  by_cases ha : a.name.fullName ∈ fullNames listing
  · rwa [list_of_mem ha, list_of_mem (hmem.1 ha)]
  · rw [list_of_not_mem ha, list_of_not_mem fun hmore => ha (hmem.2 hmore)]
    exact h.append_right [a]

/-- Nor does it if several types are listed. -/
theorem perm_foldl_list (h : listing.Perm more) (others : List Listed) :
    (others.foldl list listing).Perm (others.foldl list more) := by
  induction others generalizing listing more with
  | nil => exact h
  | cons first rest ih => exact ih (perm_list h first)

/-- A type may be listed before several others with different full names or after them. -/
theorem perm_foldl_list_cons (h : ∀ b ∈ others, a.name.fullName ≠ b.name.fullName)
    (listing : List Listed) :
    (others.foldl list (list listing a)).Perm (list (others.foldl list listing) a) := by
  induction others generalizing listing with
  | nil => exact .refl _
  | cons first rest ih =>
    obtain ⟨hfirst, hrest⟩ := List.forall_mem_cons.1 h
    exact (perm_foldl_list (perm_list_comm hfirst listing) rest).trans (ih hrest _)

/-- Two lists of types without a common full name are listed in either order. -/
theorem perm_foldl_list_comm
    (h : ∀ a ∈ more, ∀ b ∈ others, a.name.fullName ≠ b.name.fullName) (listing : List Listed) :
    (others.foldl list (more.foldl list listing)).Perm
      (more.foldl list (others.foldl list listing)) := by
  induction more generalizing listing with
  | nil => exact .refl _
  | cons first rest ih =>
    obtain ⟨hfirst, hrest⟩ := List.forall_mem_cons.1 h
    exact (ih hrest _).trans (perm_foldl_list (perm_foldl_list_cons hfirst listing) rest)

/-! ## Drafts without a common name -/

/-- Drafts without a common name are committed in either order. -/
theorem agrees_commit_commit {names others : List Declared} (hdraft : draft.Within names)
    (hlater : later.Within others) (h : ∀ x ∈ names, ∀ y ∈ others, x.name ≠ y.name)
    (registry : Registry) :
    ((registry.commit draft).commit later).Agrees ((registry.commit later).commit draft) where
  options := rfl
  messageType name := by
    have hnames : ∀ a ∈ later.messages, ∀ b ∈ draft.messages, a.name ≠ b.name := by
      intro a ha b hb
      exact (h _ (hdraft.messages b hb) _ (hlater.messages a ha)).symm
    unfold messageType commit
    simp only [lookup_named_append_comm hnames registry.pending]
  enumType name := by
    have hnames : ∀ a ∈ later.enums, ∀ b ∈ draft.enums, a.name ≠ b.name := by
      intro a ha b hb
      exact (h _ (hdraft.enums b hb) _ (hlater.enums a ha)).symm
    unfold enumType commit
    simp only [lookup_named_append_comm hnames registry.enums]
  mapEntry name := by
    apply lookup_append_comm
    intro x hx y hy
    exact (h _ (hdraft.mapEntries y hy) _ (hlater.mapEntries x hx)).symm
  listing := by
    apply perm_foldl_list_comm
    intro a ha b hb
    exact h _ (hdraft.listing a ha) _ (hlater.listing b hb)
  resolved := rfl

/-! ## Files without a common name -/

/-- The draft of a file does not change by committing the draft of another one, unless it refers to
map entries of that. -/
theorem draftFile_commit (hdraft : registry.draftFile file = .ok draft)
    (h : other.references.Disjoint file.mapEntryNames) :
    (registry.commit draft).draftFile other = registry.draftFile other := by
  apply draftFile_congr
  intro name hname
  show (draft.mapEntries ++ registry.mapEntries).lookup name = registry.mapEntries.lookup name
  have hnone : draft.mapEntries.lookup name = none := by
    apply List.lookup_eq_none_iff.2
    intro binding hbinding
    have hdeclared := (within_draftFile hdraft).mapEntries binding hbinding
    have hentry : binding.1 ∈ file.mapEntryNames :=
      List.mem_map.2 ⟨_, List.mem_filter.2 ⟨hdeclared, rfl⟩, rfl⟩
    have hne : name ≠ binding.1 := fun heq => h hname (heq ▸ hentry)
    simpa using hne
  rw [List.lookup_append, hnone, Option.none_or]

/-- Independent files are taken one after the other if the registry is open and each of them can be
drafted in it. -/
theorem addFile_addFile_eq_ok_iff (h : file.Independent other) :
    (registry.addFile file >>= fun middle => middle.addFile other) = .ok next ↔
      registry.resolved = false ∧ ∃ draft later, registry.draftFile file = .ok draft ∧
        registry.draftFile other = .ok later ∧ (registry.commit draft).commit later = next := by
  rw [Wire.except_bind_eq_ok]
  constructor
  · rintro ⟨middle, hmiddle, hnext⟩
    obtain ⟨hopen, draft, hdraft, rfl⟩ := addFile_eq_ok_iff.1 hmiddle
    obtain ⟨_, later, hlater, rfl⟩ := addFile_eq_ok_iff.1 hnext
    rw [draftFile_commit hdraft h.backReferences] at hlater
    exact ⟨hopen, draft, later, hdraft, hlater, rfl⟩
  · rintro ⟨hopen, draft, later, hdraft, hlater, rfl⟩
    refine ⟨registry.commit draft, addFile_eq_ok_iff.2 ⟨hopen, draft, hdraft, rfl⟩, ?_⟩
    rw [← draftFile_commit hdraft h.backReferences] at hlater
    exact addFile_eq_ok_iff.2 ⟨hopen, later, hlater, rfl⟩

/-- Independent files that are taken in one order are taken in the other, and the registries answer
alike. -/
theorem exists_agrees_of_addFile_addFile (h : file.Independent other)
    (hnext : (registry.addFile file >>= fun middle => middle.addFile other) = .ok next) :
    ∃ last, (registry.addFile other >>= fun middle => middle.addFile file) = .ok last ∧
      next.Agrees last := by
  obtain ⟨hopen, draft, later, hdraft, hlater, rfl⟩ := (addFile_addFile_eq_ok_iff h).1 hnext
  have hlast := (addFile_addFile_eq_ok_iff h.symm).2 ⟨hopen, later, draft, hlater, hdraft, rfl⟩
  have hnames : ∀ x ∈ file.declared, ∀ y ∈ other.declared, x.name ≠ y.name := by
    intro x hx y hy heq
    exact h.names (List.mem_map_of_mem hx) (heq ▸ List.mem_map_of_mem hy)
  exact ⟨_, hlast, agrees_commit_commit (within_draftFile hdraft) (within_draftFile hlater) hnames
    registry⟩

/-- Independent files are taken in one order exactly if they are taken in the other, and then the
registries answer alike, before they are closed and after that. -/
theorem addFile_comm (registry : Registry) (h : file.Independent other) :
    ((∃ next, (registry.addFile file >>= fun middle => middle.addFile other) = .ok next) ↔
      ∃ last, (registry.addFile other >>= fun middle => middle.addFile file) = .ok last) ∧
    ∀ next last, (registry.addFile file >>= fun middle => middle.addFile other) = .ok next →
      (registry.addFile other >>= fun middle => middle.addFile file) = .ok last →
      next.Agrees last ∧ next.resolve.Agrees last.resolve := by
  refine ⟨⟨?_, ?_⟩, ?_⟩
  · rintro ⟨next, hnext⟩
    obtain ⟨last, hlast, _⟩ := exists_agrees_of_addFile_addFile h hnext
    exact ⟨last, hlast⟩
  · rintro ⟨last, hlast⟩
    obtain ⟨next, hnext, _⟩ := exists_agrees_of_addFile_addFile h.symm hlast
    exact ⟨next, hnext⟩
  · intro next last hnext hlast
    obtain ⟨last', hlast', hagrees⟩ := exists_agrees_of_addFile_addFile h hnext
    obtain rfl : last' = last := Except.ok.inj (hlast'.symm.trans hlast)
    exact ⟨hagrees, hagrees.resolve⟩

/-! ## Files that refer to each other -/

/-- A file with a message that refers to the one of `bookFile` and maps texts to values of its
enum. -/
def authorFile : FileDescriptor where
  package := "library"
  messages := [.mk "Author"
    [{ name := "book", number := 1, typeCode := some 11, typeName := ".shop.Book" },
      { name := "stock", number := 2, typeCode := some 11, typeName := ".library.Author.Stock" }]
    [.mk "Stock"
      [{ name := "key", number := 1, typeCode := some 9 },
        { name := "value", number := 2, typeCode := some 14, typeName := ".shop.Genre" }]
      [] [] true] [] false]

/-- A file with an enum and a message that refers to that of `authorFile`. -/
def bookFile : FileDescriptor where
  package := "shop"
  messages := [.mk "Book"
    [{ name := "author", number := 1, typeCode := some 11, typeName := ".library.Author" }]
    [] [] false]
  enums := [{ name := "Genre", values := [("NOVEL", 0)] }]

/-- Although they refer to each other, the two files are independent and can be taken in both
orders. -/
theorem addFile_comm_author_book : authorFile.Independent bookFile ∧
    ∃ next last, (addFile {} authorFile >>= fun middle => middle.addFile bookFile) = .ok next ∧
      (addFile {} bookFile >>= fun middle => middle.addFile authorFile) = .ok last ∧
      next.Agrees last ∧ next.resolve.Agrees last.resolve := by
  have hindependent : authorFile.Independent bookFile := by
    refine ⟨List.disjoint_left.2 ?_, List.disjoint_left.2 ?_, List.disjoint_left.2 ?_⟩
    · decide
    · decide
    · decide
  have hcomm := addFile_comm {} hindependent
  have hnext : ∃ next, (addFile {} authorFile >>= fun middle => middle.addFile bookFile)
      = .ok next := ⟨_, rfl⟩
  obtain ⟨next, hnext⟩ := hnext
  obtain ⟨last, hlast⟩ := hcomm.1.1 ⟨next, hnext⟩
  exact ⟨hindependent, next, last, hnext, hlast, hcomm.2 next last hnext hlast⟩

/-! ## Any number of files -/

/-- What is found after a commit is found in the draft or else was found before. -/
theorem messageType_commit (hopen : registry.resolved = false) (draft : Draft) (name : String) :
    (registry.commit draft).messageType name =
      ((draft.messages.map fun type => (type.name, type)).reverse.lookup
        (Dotted.withoutLeadingDot name)).elim (registry.messageType name) .ok := by
  have hcommit : (registry.commit draft).messages =
      (draft.messages.map fun type => (type.name, type)).reverse ++ registry.messages := by
    rw [messages_of_open hopen]
    exact messages_of_open hopen
  rw [messageType_eq, messageType_eq, hcommit, List.lookup_append]
  cases (draft.messages.map fun type => (type.name, type)).reverse.lookup
    (Dotted.withoutLeadingDot name) <;> rfl

/-- So are enums. -/
theorem enumType_commit (registry : Registry) (draft : Draft) (name : String) :
    (registry.commit draft).enumType name =
      ((draft.enums.map fun type => (type.name, type)).reverse.lookup
        (Dotted.withoutLeadingDot name)).elim (registry.enumType name) .ok := by
  unfold enumType commit
  simp only [List.lookup_append]
  cases (draft.enums.map fun type => (type.name, type)).reverse.lookup
    (Dotted.withoutLeadingDot name) <;> rfl

/-- Open registries that answer alike do so with a further draft. -/
theorem Agrees.commit (h : registry.Agrees next) (hopen : registry.resolved = false)
    (draft : Draft) :
    (registry.commit draft).Agrees (next.commit draft) where
  options := h.options
  messageType name := by
    rw [messageType_commit hopen, messageType_commit (h.resolved.symm.trans hopen), h.messageType]
  enumType name := by
    rw [enumType_commit, enumType_commit, h.enumType]
  mapEntry name := by
    show (draft.mapEntries ++ registry.mapEntries).lookup name
      = (draft.mapEntries ++ next.mapEntries).lookup name
    rw [List.lookup_append, List.lookup_append, h.mapEntry]
  listing := perm_foldl_list h.listing draft.listing
  resolved := h.resolved

/-- Registries that answer alike take the same files, and answer alike with them. -/
theorem Agrees.addFile {start : Registry} (h : registry.Agrees start)
    (hnext : registry.addFile file = .ok next) :
    ∃ last, start.addFile file = .ok last ∧ next.Agrees last := by
  obtain ⟨hopen, draft, hdraft, rfl⟩ := addFile_eq_ok_iff.1 hnext
  rw [draftFile_congr fun name _ => h.mapEntry name] at hdraft
  exact ⟨_, addFile_eq_ok_iff.2 ⟨h.resolved.symm.trans hopen, draft, hdraft, rfl⟩,
    h.commit hopen draft⟩

/-- So they do with any number of files. -/
theorem Agrees.addFiles {start : Registry} {files : List FileDescriptor} (h : registry.Agrees start)
    (hnext : files.foldlM Registry.addFile registry = .ok next) :
    ∃ last, files.foldlM Registry.addFile start = .ok last ∧ next.Agrees last := by
  refine foldlM_simulates ?_ (List.forall₂_same.2 fun _ _ => rfl) h hnext
  rintro before after file _ next hagrees rfl hfile
  exact hagrees.addFile hfile

/-- Files of which any two are independent can be taken in any order, and the registries answer
alike. -/
theorem exists_agrees_of_perm {files others : List FileDescriptor} (hperm : files.Perm others)
    (h : files.Pairwise FileDescriptor.Independent)
    (hnext : files.foldlM addFile registry = .ok next) :
    ∃ last, others.foldlM addFile registry = .ok last ∧ next.Agrees last := by
  induction hperm generalizing registry next with
  | nil => exact ⟨next, hnext, .refl next⟩
  | cons file _ ih =>
    rw [List.foldlM_cons] at hnext
    obtain ⟨middle, hmiddle, hnext⟩ := Wire.except_bind_eq_ok.1 hnext
    obtain ⟨last, hlast, hagrees⟩ := ih (List.pairwise_cons.1 h).2 hnext
    refine ⟨last, ?_, hagrees⟩
    rw [List.foldlM_cons, hmiddle]
    exact hlast
  | swap file other rest =>
    have hindependent : other.Independent file :=
      (List.pairwise_cons.1 h).1 file List.mem_cons_self
    have hcons (a b : FileDescriptor) : (a :: b :: rest).foldlM Registry.addFile registry =
        ((registry.addFile a >>= fun middle => middle.addFile b) >>= fun middle =>
          rest.foldlM Registry.addFile middle) := by
      simp only [List.foldlM_cons, bind_assoc]
    rw [hcons] at hnext
    obtain ⟨middle, hmiddle, hnext⟩ := Wire.except_bind_eq_ok.1 hnext
    obtain ⟨start, hstart, hstartAgrees⟩ := exists_agrees_of_addFile_addFile hindependent hmiddle
    -- the rest is taken by registries that differ, but answer alike
    obtain ⟨last, hlast, hagrees⟩ := hstartAgrees.addFiles hnext
    refine ⟨last, ?_, hagrees⟩
    rw [hcons, hstart]
    exact hlast
  | trans hperm _ ih hlater =>
    obtain ⟨middle, hmiddle, hagrees⟩ := ih h hnext
    have hpairwise := h.perm hperm fun h => h.symm
    obtain ⟨last, hlast, hlastAgrees⟩ := hlater hpairwise hmiddle
    exact ⟨last, hlast, hagrees.trans hlastAgrees⟩

end Registry

end DynProto
