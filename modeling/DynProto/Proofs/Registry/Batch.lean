import DynProto.Proofs.Registry.Drafting

/-!
# Batches of files

`Batch` says what a buffer makes of a registry without going through its files one after the other:
the accepted files alone count, they are taken in order until one cannot be, and that one leaves
nothing behind. `addSet_eq_iff` shows that a set of files is taken in just this way, whatever the
registry and the buffer are.
-/

namespace DynProto.Registry

variable {registry next last : Registry} {buffer : Bytes}

/-- What becomes of a registry by a buffer, and the outcome. -/
inductive Batch (registry : Registry) (buffer : Bytes) :
    Registry → Except SchemaError Summary → Prop
  /-- The registry is closed; nothing is taken. -/
  | closed (hclosed : registry.resolved = true) : Batch registry buffer registry
    (.error .alreadyResolved)
  /-- The container is broken or there is no descriptor set in it; nothing is taken. -/
  | unreadable {error : SchemaError} (hopen : registry.resolved = false)
    (hfiles : filesOf buffer = .error error) : Batch registry buffer registry (.error error)
  /-- All accepted files are taken, and every file is counted. -/
  | complete {files : List FileDescriptor} {next : Registry} {summary : Summary}
    (hopen : registry.resolved = false) (hfiles : filesOf buffer = .ok files)
    (htaken : (files.filter isAccepted).foldlM addFile registry = .ok next)
    (hingested : summary.ingested = (files.filter isAccepted).length)
    (hcount : summary.ingested + summary.skipped = files.length) :
    Batch registry buffer next (.ok summary)
  /-- An accepted file cannot be taken; the accepted files before it are, and they alone. -/
  | broken {files before after : List FileDescriptor} {file : FileDescriptor} {last : Registry}
    {error : SchemaError} (hopen : registry.resolved = false) (hfiles : filesOf buffer = .ok files)
    (haccepted : files.filter isAccepted = before ++ file :: after)
    (htaken : before.foldlM addFile registry = .ok last)
    (hfile : last.addFile file = .error error) : Batch registry buffer last (.error error)

/-! ## Files -/

/-- A file that is not accepted is counted and otherwise passed over. -/
theorem addFiles_cons_of_not_accepted {file : FileDescriptor} (h : isAccepted file = false)
    (registry : Registry) (summary : Summary) (rest : List FileDescriptor) :
    registry.addFiles summary (file :: rest)
      = registry.addFiles { summary with skipped := summary.skipped + 1 } rest := by
  rw [addFiles, h]
  rfl

/-- An accepted file that can be taken is taken and counted. -/
theorem addFiles_cons_of_ok {file : FileDescriptor} (h : isAccepted file = true)
    (hfile : registry.addFile file = .ok next) (summary : Summary) (rest : List FileDescriptor) :
    registry.addFiles summary (file :: rest)
      = next.addFiles { summary with ingested := summary.ingested + 1 } rest := by
  rw [addFiles, h, hfile]
  rfl

/-- An accepted file that cannot be taken ends the batch and leaves the registry as it is. -/
theorem addFiles_cons_of_error {file : FileDescriptor} {error : SchemaError}
    (h : isAccepted file = true) (hfile : registry.addFile file = .error error) (summary : Summary)
    (rest : List FileDescriptor) :
    registry.addFiles summary (file :: rest) = (registry, .error error) := by
  rw [addFiles, h, hfile]
  rfl

/-- If all accepted files can be taken one after the other, the batch takes them. -/
theorem addFiles_of_taken {files : List FileDescriptor}
    (h : (files.filter isAccepted).foldlM addFile registry = .ok next) (summary : Summary) :
    registry.addFiles summary files = (next, .ok
      ⟨summary.ingested + (files.filter isAccepted).length,
        summary.skipped + (files.filter fun file => !isAccepted file).length⟩) := by
  induction files generalizing registry summary with
  | nil =>
    cases h
    rfl
  | cons file rest ih =>
    rcases haccepted : isAccepted file with _ | _
    · rw [List.filter_cons_of_neg (by simp [haccepted])] at h
      rw [addFiles_cons_of_not_accepted haccepted, ih h,
        List.filter_cons_of_neg (by simp [haccepted]),
        List.filter_cons_of_pos (by simp [haccepted]), List.length_cons, Nat.add_assoc,
        Nat.add_comm 1]
    · rw [List.filter_cons_of_pos haccepted, List.foldlM_cons] at h
      obtain ⟨middle, hmiddle, h⟩ := Wire.except_bind_eq_ok.1 h
      rw [addFiles_cons_of_ok haccepted hmiddle, ih h, List.filter_cons_of_pos haccepted,
        List.filter_cons_of_neg (by simp [haccepted]), List.length_cons, Nat.add_assoc,
        Nat.add_comm 1]

/-- If an accepted file cannot be taken after the accepted ones before it, the batch ends there. -/
theorem addFiles_of_broken {files before after : List FileDescriptor} {file : FileDescriptor}
    {error : SchemaError} (haccepted : files.filter isAccepted = before ++ file :: after)
    (htaken : before.foldlM addFile registry = .ok last) (hfile : last.addFile file = .error error)
    (summary : Summary) : registry.addFiles summary files = (last, .error error) := by
  induction files generalizing registry before summary with
  | nil => simp at haccepted
  | cons first rest ih =>
    rcases hfirst : isAccepted first with _ | _
    · rw [List.filter_cons_of_neg (by simp [hfirst])] at haccepted
      rw [addFiles_cons_of_not_accepted hfirst]
      exact ih haccepted htaken _
    · rw [List.filter_cons_of_pos hfirst] at haccepted
      cases before with
      | nil =>
        obtain ⟨rfl, _⟩ := List.cons_eq_cons.1 haccepted
        cases htaken
        exact addFiles_cons_of_error hfirst hfile summary rest
      | cons head before =>
        obtain ⟨rfl, hrest⟩ := List.cons_eq_cons.1 haccepted
        rw [List.foldlM_cons] at htaken
        obtain ⟨middle, hmiddle, htaken⟩ := Wire.except_bind_eq_ok.1 htaken
        rw [addFiles_cons_of_ok hfirst hmiddle]
        exact ih hrest htaken _

/-! ## Buffers -/

/-- An open registry goes through the files of a buffer that can be read. -/
theorem addSet_of_files {files : List FileDescriptor} (hopen : registry.resolved = false)
    (hfiles : filesOf buffer = .ok files) :
    registry.addSet buffer = registry.addFiles {} files := by
  unfold addSet
  rw [hopen, hfiles]
  rfl

/-- What a batch says is what happens. -/
theorem Batch.addSet_eq {outcome : Except SchemaError Summary}
    (h : Batch registry buffer next outcome) : registry.addSet buffer = (next, outcome) := by
  cases h with
  | closed hclosed =>
    unfold addSet
    rw [hclosed]
    rfl
  | unreadable hopen hfiles =>
    unfold addSet
    rw [hopen, hfiles]
    rfl
  | @complete files _ summary hopen hfiles htaken hingested hcount =>
    have hlength := List.length_eq_length_filter_add (l := files) isAccepted
    have hskipped : summary.skipped = (files.filter fun file => !isAccepted file).length := by
      omega
    rw [addSet_of_files hopen hfiles, addFiles_of_taken htaken, Nat.zero_add, Nat.zero_add,
      ← hingested, ← hskipped]
  | broken hopen hfiles haccepted htaken hfile =>
    rw [addSet_of_files hopen hfiles]
    exact addFiles_of_broken haccepted htaken hfile {}

/-- Every buffer is a batch for every registry. -/
theorem exists_batch (registry : Registry) (buffer : Bytes) :
    ∃ next outcome, Batch registry buffer next outcome := by
  rcases hopen : registry.resolved with _ | _
  · rcases hfiles : filesOf buffer with error | files
    · exact ⟨registry, _, .unreadable hopen hfiles⟩
    · rcases htaken : (files.filter isAccepted).foldlM addFile registry with error | next
      · obtain ⟨before, file, after, last, haccepted, hbefore, hfile⟩ :=
          foldlM_eq_error_iff.1 htaken
        exact ⟨last, _, .broken hopen hfiles haccepted hbefore hfile⟩
      · let summary : Summary := ⟨(files.filter isAccepted).length,
          (files.filter fun file => !isAccepted file).length⟩
        refine ⟨next, .ok summary, .complete hopen hfiles htaken rfl ?_⟩
        exact (List.length_eq_length_filter_add isAccepted).symm
  · exact ⟨registry, _, .closed hopen⟩

/-- A set of files is taken file by file: an open registry becomes what the accepted files, taken in
order, make of it, and the files that were taken and those that were passed over are counted; the
first accepted file that cannot be taken gives the error and leaves the registry as the accepted
files before it made it. A registry that is closed stays as it is, and so does one that is given a
buffer that cannot be read. -/
theorem addSet_eq_iff (registry next : Registry) (buffer : Bytes)
    (outcome : Except SchemaError Summary) :
    registry.addSet buffer = (next, outcome) ↔ Batch registry buffer next outcome := by
  constructor
  · intro h
    obtain ⟨next', outcome', hbatch⟩ := exists_batch registry buffer
    obtain ⟨rfl, rfl⟩ := Prod.mk.inj (hbatch.addSet_eq.symm.trans h)
    exact hbatch
  · exact Batch.addSet_eq

end DynProto.Registry
