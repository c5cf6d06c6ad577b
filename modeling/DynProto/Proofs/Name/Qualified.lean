import DynProto.Name.Identifier
import DynProto.Name.Qualified
import Mathlib

/-!
# Full names and their segments

A name is known by its segments (`QualifiedName.eq_of_segments_eq`), and its full name is the
segments joined by dots. So the segments of a name are what its full name is cut into exactly if
none of them has a dot in it (`QualifiedName.segments_fullName_iff`), and a name with the segments
that a text is cut into has this text for its full name. A package name that is made of identifiers
has no empty segments.
-/

namespace DynProto

namespace Dotted

/-! ## Cutting and joining -/

/-- Cutting leaves no dots. -/
theorem dot_not_mem_of_mem_splitChars {cs piece : List Char} (h : piece ∈ splitChars cs) :
    '.' ∉ piece := by
  induction cs generalizing piece with
  | nil =>
    rw [splitChars, List.mem_singleton] at h
    rw [h]
    exact List.not_mem_nil
  | cons c cs ih =>
    rw [splitChars] at h
    split_ifs at h with hc
    · rcases List.mem_cons.1 h with rfl | h
      · exact List.not_mem_nil
      · exact ih h
    · rcases hcs : splitChars cs with _ | ⟨first, pieces⟩
      · exact absurd hcs (splitChars_ne_nil cs)
      · rw [hcs] at h ih
        rcases List.mem_cons.1 h with rfl | h
        · rw [List.mem_cons, not_or]
          exact ⟨Ne.symm hc, ih List.mem_cons_self⟩
        · exact ih (List.mem_cons_of_mem first h)

/-- A piece without dots goes to the first piece of what is cut behind it. -/
theorem splitChars_append {piece cs first : List Char} {pieces : List (List Char)}
    (hpiece : '.' ∉ piece) (h : splitChars cs = first :: pieces) :
    splitChars (piece ++ cs) = (piece ++ first) :: pieces := by
  induction piece with
  | nil => exact h
  | cons c piece ih =>
    rw [List.mem_cons, not_or] at hpiece
    rw [List.cons_append, splitChars, if_neg (Ne.symm hpiece.1), ih hpiece.2]
    rfl

/-- What is joined from pieces without dots is cut into the pieces. -/
theorem splitChars_joinChars {pieces : List (List Char)} (hne : pieces ≠ [])
    (h : ∀ piece ∈ pieces, '.' ∉ piece) : splitChars (joinChars pieces) = pieces := by
  induction pieces with
  | nil => exact absurd rfl hne
  | cons piece rest ih =>
    obtain ⟨hpiece, hrest⟩ := List.forall_mem_cons.1 h
    cases rest with
    | nil =>
      have hend := splitChars_append hpiece (show splitChars [] = [[]] from rfl)
      rwa [List.append_nil] at hend
    | cons next rest =>
      have hdot : splitChars ('.' :: joinChars (next :: rest)) = [] :: next :: rest := by
        rw [splitChars, if_pos rfl, ih (List.cons_ne_nil _ _) hrest]
      have hjoin := splitChars_append hpiece hdot
      rwa [List.append_nil] at hjoin

/-- A further piece is joined behind a dot. -/
theorem joinChars_concat {pieces : List (List Char)} (hne : pieces ≠ []) (piece : List Char) :
    joinChars (pieces ++ [piece]) = joinChars pieces ++ '.' :: piece := by
  induction pieces with
  | nil => exact absurd rfl hne
  | cons first rest ih =>
    cases rest with
    | nil => rfl
    | cons next rest =>
      have hrest := ih (List.cons_ne_nil _ _)
      rw [List.cons_append] at hrest
      simp [joinChars, hrest]

/-! ## Leading dots -/

/-- A text that does not open with a dot stays. -/
theorem withoutLeadingDot_of_head {text : String} (h : text.toList.head? ≠ some '.') :
    withoutLeadingDot text = text := by
  unfold withoutLeadingDot
  split
  · rename_i rest hrest
    rw [hrest] at h
    exact absurd rfl h
  · rfl

/-- What is left of a text is the text behind a leading dot, or the whole text if it has none. -/
theorem withoutLeadingDot_eq_iff {text path : String} :
    withoutLeadingDot text = path ↔
      text = "." ++ path ∨ text = path ∧ text.toList.head? ≠ some '.' := by
  constructor
  · rintro rfl
    unfold withoutLeadingDot
    split
    · rename_i rest hchars
      exact .inl (String.toList_inj.1 (by simp [hchars]))
    · rename_i hchars
      refine .inr ⟨rfl, fun hhead => ?_⟩
      obtain ⟨rest, hrest⟩ := List.head?_eq_some_iff.1 hhead
      exact hchars rest hrest
  · rintro (rfl | ⟨rfl, hhead⟩)
    · have hchars : ("." ++ path).toList = '.' :: path.toList := by
        rw [String.toList_append]
        rfl
      simp [withoutLeadingDot, hchars]
    · exact withoutLeadingDot_of_head hhead

/-- A text that is the same after its leading dot is dropped twice has none: it would be shorter. -/
theorem eq_of_withoutLeadingDot_twice {text : String}
    (h : withoutLeadingDot (withoutLeadingDot text) = text) : withoutLeadingDot text = text := by
  have hle : ∀ text, (withoutLeadingDot text).toList.length ≤ text.toList.length := by
    intro text
    unfold withoutLeadingDot
    split
    · rename_i rest hrest
      rw [hrest, String.toList_ofList]
      exact Nat.le_succ _
    · exact Nat.le_refl _
  by_cases hhead : text.toList.head? = some '.'
  · rcases hchars : text.toList with _ | ⟨c, rest⟩ <;> rw [hchars] at hhead <;> cases hhead
    have hwithout : withoutLeadingDot text = String.ofList rest := by
      simp [withoutLeadingDot, hchars]
    have hlength := hle (withoutLeadingDot text)
    rw [h, hwithout, String.toList_ofList, hchars] at hlength
    exact absurd hlength (Nat.not_succ_le_self _)
  · exact withoutLeadingDot_of_head hhead

end Dotted

namespace QualifiedName

variable {name : QualifiedName}

/-! ## Segments -/

/-- A name has segments. -/
theorem segments_ne_nil (name : QualifiedName) : name.segments ≠ [] := by
  cases name <;> simp

/-- The chain that is made from the segments of a name is the name. -/
theorem ofSegments?_segments (name : QualifiedName) : ofSegments? name.segments = some name := by
  induction name with
  | root symbol => rfl
  | within parent symbol ih =>
    rcases hparent : parent.segments with _ | ⟨first, rest⟩
    · exact absurd hparent parent.segments_ne_nil
    · rw [hparent, ofSegments?, Option.some.injEq] at ih
      rw [segments_within, hparent, List.cons_append, ofSegments?, List.foldl_append, ih]
      rfl

/-- Names with the same segments are the same chain. -/
theorem eq_of_segments_eq {other : QualifiedName} (h : name.segments = other.segments) :
    name = other := by
  have hchain := ofSegments?_segments name
  rw [h, ofSegments?_segments other] at hchain
  exact (Option.some.inj hchain).symm

/-! ## Full names -/

/-- The full name is joined from the segments. -/
theorem toList_fullName (name : QualifiedName) :
    name.fullName.toList = Dotted.joinChars (name.segments.map String.toList) := by
  induction name with
  | root symbol => rfl
  | within parent symbol ih =>
    have hne : parent.segments.map String.toList ≠ [] := by
      simp [segments_ne_nil]
    rw [segments_within, List.map_append, List.map_singleton, Dotted.joinChars_concat hne, ← ih,
      fullName]
    simp

/-- A name whose segments are those of a text has the text for its full name. -/
theorem fullName_of_segments {text : String} (h : name.segments = Dotted.segments text) :
    name.fullName = text := by
  refine String.toList_inj.1 ?_
  rw [toList_fullName, h, Dotted.segments, List.map_map]
  have hself : String.toList ∘ String.ofList = id := by
    funext cs
    exact String.toList_ofList
  rw [hself, List.map_id, Dotted.joinChars_splitChars]

/-- Names with the same segments have the same full name. -/
theorem fullName_eq_of_segments_eq {other : QualifiedName} (h : name.segments = other.segments) :
    name.fullName = other.fullName :=
  congrArg fullName (eq_of_segments_eq h)

/-- No segment of a name has a dot in it. -/
def Undotted (name : QualifiedName) : Prop :=
  ∀ segment ∈ name.segments, '.' ∉ segment.toList

instance (name : QualifiedName) : Decidable name.Undotted :=
  inferInstanceAs (Decidable (∀ segment ∈ name.segments, '.' ∉ segment.toList))

/-- The full name is cut into the segments exactly if none of them has a dot in it. -/
theorem segments_fullName_iff :
    Dotted.segments name.fullName = name.segments ↔ name.Undotted := by
  constructor
  · intro h segment hsegment
    rw [← h, Dotted.segments, List.mem_map] at hsegment
    obtain ⟨piece, hpiece, rfl⟩ := hsegment
    rw [String.toList_ofList]
    exact Dotted.dot_not_mem_of_mem_splitChars hpiece
  · intro h
    have hne : name.segments.map String.toList ≠ [] := by
      simp [segments_ne_nil]
    have hpieces : ∀ piece ∈ name.segments.map String.toList, '.' ∉ piece := by
      simpa [Undotted] using h
    rw [Dotted.segments, toList_fullName, Dotted.splitChars_joinChars hne hpieces, List.map_map]
    have hself : String.ofList ∘ String.toList = id := by
      funext text
      exact String.ofList_toList
    rw [hself, List.map_id]

/-- Without dots in the segments, the full name opens with a character of the first one, unless this
is empty. -/
theorem exists_head?_fullName (hroot : name.segments.head? ≠ some "") (hdot : name.Undotted) :
    ∃ c, name.fullName.toList.head? = some c ∧ c ≠ '.' := by
  rw [toList_fullName]
  rcases hsegments : name.segments with _ | ⟨first, rest⟩
  · exact absurd hsegments name.segments_ne_nil
  · have hfirst := hdot first (by rw [hsegments]; exact List.mem_cons_self)
    rcases hchars : first.toList with _ | ⟨c, cs⟩
    · rw [hsegments, String.toList_eq_nil_iff.1 hchars] at hroot
      exact absurd rfl hroot
    · rw [hchars, List.mem_cons, not_or] at hfirst
      refine ⟨c, ?_, Ne.symm hfirst.1⟩
      rw [List.map_cons, hchars]
      cases rest <;> rfl

/-- If the first segment is empty, the full name is empty or opens with a dot. -/
theorem fullName_of_empty_root (hroot : name.segments.head? = some "") :
    name.fullName = "" ∨ name.fullName.toList.head? = some '.' := by
  rcases hsegments : name.segments with _ | ⟨first, rest⟩ <;> rw [hsegments] at hroot <;>
    cases hroot
  rw [← String.toList_eq_nil_iff, toList_fullName, hsegments]
  cases rest
  · exact .inl rfl
  · exact .inr rfl

/-- A name without empty segments has a first segment that is not empty. -/
theorem head?_segments_ne (hempty : "" ∉ name.segments) : name.segments.head? ≠ some "" :=
  fun hroot => hempty (List.mem_of_mem_head? hroot)

/-- The full name does not open with a dot if no segment is empty or has a dot in it. -/
theorem withoutLeadingDot_fullName (hempty : "" ∉ name.segments) (hdot : name.Undotted) :
    Dotted.withoutLeadingDot name.fullName = name.fullName := by
  obtain ⟨c, hhead, hc⟩ := exists_head?_fullName (head?_segments_ne hempty) hdot
  refine Dotted.withoutLeadingDot_of_head ?_
  rw [hhead, Ne, Option.some.injEq]
  exact hc

/-- The full name is not empty if no segment is empty or has a dot in it. -/
theorem fullName_ne_empty (hempty : "" ∉ name.segments) (hdot : name.Undotted) :
    name.fullName ≠ "" := by
  obtain ⟨c, hhead, _⟩ := exists_head?_fullName (head?_segments_ne hempty) hdot
  intro hnil
  rw [hnil] at hhead
  cases hhead

/-! ## Names read from texts -/

/-- A chain has the segments that it is made from. -/
theorem segments_of_ofSegments? {segments : List String} (h : ofSegments? segments = some name) :
    name.segments = segments := by
  cases segments with
  | nil => cases h
  | cons first rest =>
    cases h
    rw [segments_foldl_within]
    rfl

/-- A name that is read from a text has the segments of the text, less a leading dot. -/
theorem segments_of_ofDotted? {text : String} (h : ofDotted? text = some name) :
    name.segments = Dotted.segments (Dotted.withoutLeadingDot text) := by
  unfold ofDotted? at h
  simp only at h
  split_ifs at h
  exact segments_of_ofSegments? h

/-- A package name gives a name without empty segments. -/
theorem empty_not_mem_segments_of_isPackageName {text : String} (htext : isPackageName text = true)
    (h : ofDotted? text = some name) : "" ∉ name.segments := by
  rw [isPackageName, List.all_eq_true] at htext
  have hhead : text.toList.head? ≠ some '.' := by
    intro hdot
    rcases hchars : text.toList with _ | ⟨c, rest⟩ <;> rw [hchars] at hdot <;> cases hdot
    have hnil := htext [] (by rw [hchars, Dotted.splitChars, if_pos rfl]; exact List.mem_cons_self)
    cases hnil
  intro hempty
  rw [segments_of_ofDotted? h, Dotted.withoutLeadingDot_of_head hhead, Dotted.segments,
    List.mem_map] at hempty
  obtain ⟨piece, hpiece, hnil⟩ := hempty
  have hidentifier := htext piece hpiece
  rw [← String.toList_ofList (l := piece), hnil] at hidentifier
  cases hidentifier

end QualifiedName

end DynProto
