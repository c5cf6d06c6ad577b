/-!
# Dotted text

Type names, package names and namespace paths are all written as segments joined by dots. This
file cuts such a text into its segments and joins segments back.

A text always has at least one segment: `segments ""` is `[""]`, and every dot, also a leading, a
trailing or a doubled one, separates two segments, so nothing is lost by the cut
(`joinChars_splitChars`).
-/

namespace DynProto.Dotted

/-- The text without one leading dot, if it opens with one. -/
def withoutLeadingDot (text : String) : String :=
  match text.toList with
  | '.' :: rest => String.ofList rest
  | _ => text

/-- The pieces of a character list between its dots, in order; there is always at least one. -/
def splitChars : List Char → List (List Char)
  | [] => [[]]
  | c :: rest =>
    if c = '.' then [] :: splitChars rest
    else
      match splitChars rest with
      | [] => [[c]]
      | piece :: pieces => (c :: piece) :: pieces

/-- The pieces joined by single dots. -/
def joinChars : List (List Char) → List Char
  | [] => []
  | [piece] => piece
  | piece :: pieces => piece ++ '.' :: joinChars pieces

/-- The segments of a dotted text, in order. -/
def segments (text : String) : List String :=
  (splitChars text.toList).map String.ofList

/-! ## Cutting loses nothing -/

theorem splitChars_ne_nil (cs : List Char) : splitChars cs ≠ [] := by
  cases cs with
  | nil => simp [splitChars]
  | cons c rest =>
    unfold splitChars
    split
    · simp
    · split <;> simp

/-- Joining the pieces of a text gives the text back. -/
theorem joinChars_splitChars (cs : List Char) : joinChars (splitChars cs) = cs := by
  induction cs with
  | nil => rfl
  | cons c rest ih =>
    unfold splitChars
    split
    · rename_i h
      cases hs : splitChars rest with
      | nil => exact absurd hs (splitChars_ne_nil rest)
      | cons piece pieces => rw [← ih, hs, h]; rfl
    · cases hs : splitChars rest with
      | nil => exact absurd hs (splitChars_ne_nil rest)
      | cons piece pieces =>
        rw [← ih, hs]
        cases pieces <;> rfl

end DynProto.Dotted
