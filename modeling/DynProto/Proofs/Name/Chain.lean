import DynProto.Proofs.Name.Qualified

/-!
# Dotted texts and chains of parents

A qualified name can be seen as a dotted text and as a chain of parents. The segments tie the two
together: the full name joins them with dots (`fullName_eq_intercalate`), and each parent has the
segments that are left when some are taken off the end (`segments_getElem_ancestors`).

`ofDotted?_eq_some_iff` says which chain a text is read as. No segment of it can have a dot, and the
text is its full name, with or without a dot in front. The second form asks for a first segment that
is not empty: otherwise the full name has a dot in front already, and that one is dropped. So a
chain is read back from its own full name exactly if its segments have no dots and the first one is
not empty (`ofDotted?_fullName_iff`); other segments may be empty.
-/

namespace DynProto.QualifiedName

variable {name : QualifiedName} {text : String}

/-! ## Joining the segments -/

/-- The full name is the segments joined by dots. -/
theorem fullName_eq_intercalate (name : QualifiedName) :
    name.fullName = String.intercalate "." name.segments := by
  induction name with
  | root symbol => simp [fullName]
  | within parent symbol ih =>
    rw [fullName, ih, segments_within,
      String.intercalate_append_of_ne_nil parent.segments_ne_nil (List.cons_ne_nil symbol []),
      String.intercalate_singleton]

/-! ## The parents of a name -/

/-- There is one parent for every smaller depth. -/
theorem length_ancestors (name : QualifiedName) : name.ancestors.length + 1 = name.depth := by
  induction name with
  | root symbol => rfl
  | within parent symbol ih => rw [ancestors, List.length_cons, ih, depth]

/-- Going up the chain takes segments off the end. -/
theorem segments_getElem_ancestors (name : QualifiedName) (i : Nat)
    (h : i < name.ancestors.length) :
    name.ancestors[i].segments = name.segments.take (name.depth - (i + 1)) := by
  induction name generalizing i with
  | root symbol => cases h
  | within parent symbol ih =>
    have hle : parent.depth + 1 - (i + 1) ≤ parent.segments.length := by
      rw [length_segments]
      omega
    rw [segments_within, depth, List.take_append_of_le_length hle]
    cases i with
    | zero => rw [Nat.add_sub_cancel, ← length_segments, List.take_length]; rfl
    | succ i =>
      rw [Nat.add_sub_add_right]
      exact ih i (Nat.lt_of_succ_lt_succ h)

/-! ## Reading a text -/

/-- What is left of a text without a leading dot is the full name of the chain that it is read
as. -/
theorem ofDotted?_eq_some_iff_withoutLeadingDot : ofDotted? text = some name ↔
    name.Undotted ∧ name.fullName ≠ "" ∧ Dotted.withoutLeadingDot text = name.fullName := by
  constructor
  · intro h
    have hsegments := segments_of_ofDotted? h
    have hfull := fullName_of_segments hsegments
    refine ⟨segments_fullName_iff.1 (by rw [hfull, hsegments]), fun hempty => ?_, hfull.symm⟩
    rw [hempty] at hfull
    simp [ofDotted?, ← hfull] at h
  · rintro ⟨hdot, hne, hpath⟩
    simp only [ofDotted?, hpath, segments_fullName_iff.2 hdot, ofSegments?_segments]
    exact if_neg (by simpa using hne)

/-- A text is read as the chain of which it is the full name, with or without a dot in front. -/
theorem ofDotted?_eq_some_iff : ofDotted? text = some name ↔
    name.Undotted ∧ (text = "." ++ name.fullName ∧ name.fullName ≠ "" ∨
      text = name.fullName ∧ name.segments.head? ≠ some "") := by
  rw [ofDotted?_eq_some_iff_withoutLeadingDot, Dotted.withoutLeadingDot_eq_iff]
  refine and_congr_right fun hdot => ⟨?_, ?_⟩
  · rintro ⟨hne, htext | ⟨htext, hhead⟩⟩
    · exact .inl ⟨htext, hne⟩
    · rw [htext] at hhead
      exact .inr ⟨htext, fun hroot => (fullName_of_empty_root hroot).elim hne hhead⟩
  · rintro (⟨htext, hne⟩ | ⟨htext, hroot⟩)
    · exact ⟨hne, .inl htext⟩
    · obtain ⟨c, hhead, hc⟩ := exists_head?_fullName hroot hdot
      refine ⟨fun hempty => ?_, .inr ⟨htext, ?_⟩⟩
      · rw [hempty] at hhead
        cases hhead
      · rw [htext, hhead, Ne, Option.some.injEq]
        exact hc

/-- Only the empty text and the single dot name nothing. -/
theorem ofDotted?_eq_none_iff : ofDotted? text = none ↔ text = "" ∨ text = "." := by
  have hnone : ofDotted? text = none ↔ Dotted.withoutLeadingDot text = "" := by
    constructor
    · intro h
      by_contra hne
      rw [ofDotted?, if_neg (by simpa using hne)] at h
      rcases hsegments : Dotted.segments (Dotted.withoutLeadingDot text) with _ | ⟨first, rest⟩
      · exact Dotted.splitChars_ne_nil _ (List.map_eq_nil_iff.1 hsegments)
      · rw [hsegments] at h
        cases h
    · intro h
      rw [ofDotted?, h]
      rfl
  rw [hnone, Dotted.withoutLeadingDot_eq_iff]
  constructor
  · rintro (htext | ⟨htext, _⟩)
    · exact .inr htext
    · exact .inl htext
  · rintro (rfl | rfl)
    · exact .inr ⟨rfl, by decide⟩
    · exact .inl rfl

/-- A chain is read back from its full name exactly if no segment has a dot in it and the first one
is not empty. -/
theorem ofDotted?_fullName_iff :
    ofDotted? name.fullName = some name ↔ name.Undotted ∧ name.segments.head? ≠ some "" := by
  rw [ofDotted?_eq_some_iff]
  refine and_congr_right fun _ => ⟨?_, fun hroot => .inr ⟨rfl, hroot⟩⟩
  rintro (⟨hself, _⟩ | ⟨_, hroot⟩)
  · have hlength := congrArg String.length hself
    rw [String.length_append] at hlength
    exact absurd hlength (Nat.ne_of_lt (Nat.lt_add_of_pos_left (by decide)))
  · exact hroot

-- the dot behind an empty first segment is taken for a leading one
example : ofDotted? (within (root "") "a").fullName = some (root "a") := by
  decide

/-! ## Two views of one name -/

/-- A text and a chain agree on what they name. -/
structure Spells (text : String) (name : QualifiedName) : Prop where
  /-- The text is the full name, with a dot in front if it opens with one. -/
  fullName : text = "." ++ name.fullName ∨ text = name.fullName ∧ text.toList.head? ≠ some '.'
  /-- The segments joined by dots give the full name. -/
  joined : String.intercalate "." name.segments = name.fullName
  /-- No segment has a dot in it. -/
  undotted : name.Undotted
  /-- The depth is the number of segments. -/
  depth : name.depth = name.segments.length
  /-- There is one parent for every smaller depth. -/
  parents : name.ancestors.length + 1 = name.depth
  /-- The full name of each parent is joined from the segments in front. -/
  parent : ∀ (i : Nat) (h : i < name.ancestors.length), name.ancestors[i].fullName
    = String.intercalate "." (name.segments.take (name.depth - (i + 1)))

/-- A text agrees with the chain that it is read as. -/
theorem spells_of_ofDotted? (h : ofDotted? text = some name) : Spells text name where
  fullName :=
    Dotted.withoutLeadingDot_eq_iff.1 (fullName_of_segments (segments_of_ofDotted? h)).symm
  joined := (fullName_eq_intercalate name).symm
  undotted := (ofDotted?_eq_some_iff.1 h).1
  depth := (length_segments name).symm
  parents := length_ancestors name
  parent i hi := by rw [fullName_eq_intercalate, segments_getElem_ancestors]

/-- A text is read as a chain that agrees with it, unless it is empty or a single dot; and the
chains that are read back from their full names are those without dots in their segments whose
first segment is not empty. -/
theorem dotted_chain :
    (∀ text name, ofDotted? text = some name → Spells text name) ∧
      (∀ text, ofDotted? text = none ↔ text = "" ∨ text = ".") ∧
      ∀ name, ofDotted? name.fullName = some name ↔
        name.Undotted ∧ name.segments.head? ≠ some "" :=
  ⟨fun _ _ => spells_of_ofDotted?, fun _ => ofDotted?_eq_none_iff, fun _ => ofDotted?_fullName_iff⟩

/-- Of two dots in front one is dropped, and the dots between empty segments stay. -/
theorem dotted_chain_doubledDots :
    ofDotted? "..a." = some (within (within (root "") "a") "") ∧
      Spells "..a." (within (within (root "") "a") "") ∧
      (within (within (root "a") "") "b").fullName = "a..b" ∧
      ofDotted? (within (within (root "a") "") "b").fullName
        = some (within (within (root "a") "") "b") :=
  have hread : ofDotted? "..a." = some (within (within (root "") "a") "") := by decide
  ⟨hread, dotted_chain.1 _ _ hread, by decide,
    (dotted_chain.2.2 (within (within (root "a") "") "b")).2 ⟨by decide, by decide⟩⟩

end DynProto.QualifiedName
