import DynProto.Proofs.Json.Layout

/-!
# Integer literals, and objects as they are written

An integer literal is read as the number that is held for it, whatever stands around it, and is
refused if there is no such number (`takes_chars`).

The text of an object is taken apart into its members: each has the characters of its value, which
need not be those that the value would be written with. The text is read as the object of these
values, the last one of a key, if each of them is read (`parse?_objectText`).
-/

namespace DynProto.Json

/-! ## Integer literals -/

/-- The text of an integer: digits after a minus sign or no sign, without a zero in front of other
digits. -/
structure Literal where
  /-- Whether there is a minus sign. -/
  negative : Bool
  /-- The digits. -/
  digits : List Char
  /-- There is a digit. -/
  ne_nil : digits ≠ []
  /-- There is nothing but digits. -/
  isDigit : digits.all Char.isDigit = true
  /-- A zero stands alone. -/
  head?_ne : 1 < digits.length → digits.head? ≠ some '0'

namespace Literal

/-- The characters of a literal. -/
def chars (literal : Literal) : List Char :=
  if literal.negative then '-' :: literal.digits else literal.digits

/-- The integer that a literal spells. -/
def toInt (literal : Literal) : Int :=
  if literal.negative then -(Text.digitsValue literal.digits : Int)
  else Text.digitsValue literal.digits

/-- The number that is held for a literal, if one is. -/
def number? (literal : Literal) : Option Number :=
  integerLiteral? literal.negative (Text.digitsValue literal.digits)

/-- A literal starts with a digit or a minus sign. -/
theorem exists_chars_eq_cons (literal : Literal) :
    ∃ c cs, literal.chars = c :: cs ∧ (c.isDigit = true ∨ c = '-') := by
  unfold chars
  split
  · exact ⟨_, _, rfl, .inr rfl⟩
  · obtain ⟨c, cs, hcs⟩ := List.exists_cons_of_ne_nil literal.ne_nil
    have hdigit : c ∈ literal.digits := hcs ▸ List.mem_cons_self
    exact ⟨c, cs, hcs, .inl (List.all_eq_true.1 literal.isDigit c hdigit)⟩

/-- A literal is read as the number that is held for it. -/
theorem number?_chars (literal : Literal) {rest : List Char} (hrest : EndsNumber rest) :
    Json.number? (literal.chars ++ rest) = literal.number?.map fun number => (number, rest) := by
  have hunsigned := unsignedNumber?_append literal.negative literal.ne_nil literal.isDigit
    literal.head?_ne hrest
  unfold chars
  rcases hsign : literal.negative with _ | _
  · obtain ⟨c, cs, hcs, hc⟩ := literal.exists_chars_eq_cons
    have hdigits : literal.chars = literal.digits := by rw [chars, hsign]; rfl
    have hne : c ≠ '-' := by
      rintro rfl
      have hdigit := List.all_eq_true.1 literal.isDigit '-' (by simp [← hdigits, hcs])
      exact absurd hdigit (by decide)
    rw [hsign] at hunsigned
    rw [if_neg (by decide), number?, hsign, ← hunsigned, ← hdigits, hcs, List.cons_append,
      Json.number?]
    rintro rest' heq
    exact hne (List.cons.inj heq).1
  · rw [hsign] at hunsigned
    rw [if_pos rfl, number?, hsign, ← hunsigned, List.cons_append, Json.number?]

/-- A literal is taken for the number that is held for it, if one is. -/
theorem takes_chars (literal : Literal) (depth : Nat) :
    Takes (value depth) literal.chars (number (literal.number?.getD (.natural 0)))
      (literal.number?.isSome = true) := by
  intro blanks rest hblanks hrest
  obtain ⟨c, cs, hcs, hc⟩ := literal.exists_chars_eq_cons
  obtain ⟨hblank, _, harray, hobject⟩ := of_number_start hc
  have hnumber := literal.number?_chars hrest
  rw [hcs, List.cons_append] at hnumber
  rw [hcs, List.cons_append, value_append_cons hblanks hblank harray hobject,
    scalar_of_number hc, hnumber]
  cases literal.number? <;> simp

end Literal

/-! ## Objects -/

/-- A member of an object as it is written. -/
structure Written where
  /-- The key. -/
  key : String
  /-- The characters of the value. -/
  chars : List Char

/-- The characters of the value of a member are read as a value, wherever they stand. -/
def Written.Spells (member : Written) (json : Json) : Prop :=
  Takes (value (maxDepth - 1)) member.chars json True

/-- Where blanks stand in the text of an object. -/
structure Spacing where
  /-- In front of the object. -/
  front : List Char
  /-- In front of every key. -/
  start : List Char
  /-- In front of every value. -/
  space : List Char
  /-- Behind the last value. -/
  finish : List Char
  /-- Behind the object. -/
  back : List Char
  /-- Nothing but blanks stand there. -/
  isBlank : ∀ c ∈ front ++ start ++ space ++ finish ++ back, isBlank c = true

/-- The text of an object. -/
def objectText (spacing : Spacing) (members : List Written) : String :=
  String.ofList <| spacing.front ++ '\x7b' ::
    (closed '\x7d' spacing.start spacing.finish (members.map fun member =>
      quoted member.key ++ ':' :: (spacing.space ++ member.chars)) ++ spacing.back)

/-- The text of an object is read as an object, if it is read. -/
theorem exists_object_of_parse? {spacing : Spacing} {members : List Written} {json : Json}
    (h : parse? (objectText spacing members) = some json) : ∃ read, json = object read := by
  have hfront : ∀ c ∈ spacing.front, Json.isBlank c = true := by
    have hblanks := spacing.isBlank
    simp only [List.mem_append, or_imp, forall_and] at hblanks
    exact hblanks.1.1.1.1
  rw [parse?, ofText?, objectText, String.toList_ofList, show maxDepth = maxDepth - 1 + 1 from rfl,
    value, skipBlanks_append hfront, skipBlanks_cons rfl] at h
  simp only at h
  generalize items (member (value (maxDepth - 1))) _ _ = found at h
  rcases found with _ | ⟨read, rest⟩
  · cases h
  · simp only [Option.map_some] at h
    split at h
    · cases h
      exact ⟨_, canonical.eq_2 read⟩
    · cases h

/-- What a reader takes if something holds, it takes if the same holds in other words. -/
theorem Takes.congr {α : Type} {read : List Char → Option (α × List Char)} {cs : List Char} {a : α}
    {fits fits' : Prop} [Decidable fits] [Decidable fits'] (h : Takes read cs a fits)
    (hiff : fits ↔ fits') : Takes read cs a fits' := by
  intro blanks rest hblanks hrest
  rw [h blanks rest hblanks hrest]
  simp only [hiff]

/-- The text of an object whose values are read is read as the object of these values. -/
theorem parse?_objectText (spacing : Spacing) {members : List (Written × Json)}
    {fits : Written × Json → Prop} [DecidablePred fits] (h : ∀ member ∈ members,
      Takes (value (maxDepth - 1)) member.1.chars member.2 (fits member)) :
    parse? (objectText spacing (members.map Prod.fst)) = if ∀ member ∈ members, fits member then
      some (object (members.map fun member => (member.1.key, member.2))).canonical
    else none := by
  have hblanks := spacing.isBlank
  simp only [List.mem_append, or_imp, forall_and] at hblanks
  obtain ⟨⟨⟨⟨hfront, hstart⟩, hspace⟩, hfinish⟩, hback⟩ := hblanks
  have hread : ∀ entry ∈ members,
      Opens '\x7d' (quoted entry.1.key ++ ':' :: (spacing.space ++ entry.1.chars)) ∧
        Takes (member (value (maxDepth - 1)))
          (quoted entry.1.key ++ ':' :: (spacing.space ++ entry.1.chars))
          (entry.1.key, entry.2) (fits entry) := fun entry hentry =>
    ⟨⟨_, _, rfl, by decide⟩, takes_member hspace (h entry hentry) entry.1.key⟩
  have hmembers := items_closed hstart hfinish ⟨rfl, by decide⟩ (by decide) hread spacing.back
  have hskip : skipBlanks spacing.back = [] := by
    rw [← List.append_nil spacing.back, skipBlanks_append hback]
    rfl
  rw [parse?, ofText?, objectText, String.toList_ofList, List.map_map,
    show maxDepth = maxDepth - 1 + 1 from rfl, value, skipBlanks_append hfront, skipBlanks_cons rfl]
  simp only [Function.comp_def, hmembers]
  split_ifs
  · simp [hskip]
  · rfl

/-- The text of an object with one member whose value is read or not, among members whose values are
read, is read as the object of these values or not at all. -/
theorem parse?_objectText_middle (spacing : Spacing) {before after : List (Written × Json)}
    (hspelled : ∀ other ∈ before ++ after, other.1.Spells other.2) {member : Written} {json : Json}
    {fits : Prop} [Decidable fits]
    (hmember : Takes (value (maxDepth - 1)) member.chars json fits)
    (hkeys : ∀ other ∈ before ++ after, other.1.key ≠ member.key) :
    parse? (objectText spacing (before.map Prod.fst ++ member :: after.map Prod.fst))
      = if fits then some (object (before.map (fun other => (other.1.key, other.2)) ++
          (member.key, json) :: after.map fun other => (other.1.key, other.2))).canonical
        else none := by
  have htaken : ∀ other ∈ before ++ (member, json) :: after,
      Takes (value (maxDepth - 1)) other.1.chars other.2 (other.1.key = member.key → fits) := by
    intro other hother
    rcases List.mem_append.1 hother with hbefore | hother
    · have hne := hkeys other (List.mem_append_left _ hbefore)
      exact (hspelled other (List.mem_append_left _ hbefore)).congr (by simp [hne])
    rcases List.mem_cons.1 hother with rfl | hafter
    · exact hmember.congr (by simp)
    · have hne := hkeys other (List.mem_append_right _ hafter)
      exact (hspelled other (List.mem_append_right _ hafter)).congr (by simp [hne])
  have hall : (∀ other ∈ before ++ (member, json) :: after, other.1.key = member.key → fits)
      ↔ fits := by
    refine ⟨fun h => h (member, json) (by simp) rfl, fun h _ _ _ => h⟩
  have hparse := parse?_objectText spacing htaken
  simp only [hall] at hparse
  simpa using hparse

end DynProto.Json
