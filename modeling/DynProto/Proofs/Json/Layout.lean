import DynProto.Proofs.Json.Token
import DynProto.Proofs.OrderedMap

/-!
# JSON text is read back

A value is written in one of two layouts, which differ in the blanks only. In either it is read as
the value that was written, or refused because too many arrays and objects are nested in one another
(`parse?_spread`). This holds for values that their text determines: without floating-point numbers,
and with the members of objects in canonical order.
-/

namespace DynProto.Json

/-! ## Nesting -/

mutual

/-- How many arrays and objects are nested in one another in a value, the value itself included. -/
def nesting : Json → Nat
  | array items => itemsNesting items + 1
  | object members => membersNesting members + 1
  | _ => 0

/-- The largest nesting of an item. -/
def itemsNesting : List Json → Nat
  | [] => 0
  | item :: rest => max item.nesting (itemsNesting rest)

/-- The largest nesting of the value of a member. -/
def membersNesting : List (String × Json) → Nat
  | [] => 0
  | (_, value) :: rest => max value.nesting (membersNesting rest)

end

/-- A number bounds the nesting of all items exactly if it bounds that of each. -/
theorem itemsNesting_le_iff {items : List Json} {n : Nat} :
    itemsNesting items ≤ n ↔ ∀ item ∈ items, item.nesting ≤ n := by
  induction items with
  | nil => simp [itemsNesting]
  | cons item rest ih => rw [itemsNesting, Nat.max_le, ih, List.forall_mem_cons]

/-- A number bounds the nesting of all members exactly if it bounds that of each. -/
theorem membersNesting_le_iff {members : List (String × Json)} {n : Nat} :
    membersNesting members ≤ n ↔ ∀ member ∈ members, member.2.nesting ≤ n := by
  induction members with
  | nil => simp [membersNesting]
  | cons member rest ih => rw [membersNesting, Nat.max_le, ih, List.forall_mem_cons]

/-! ## Values that their text determines -/

/-- A value without floating-point numbers in which the members of every object are in canonical
order. -/
inductive Printable : Json → Prop
  /-- `null`. -/
  | null : Printable .null
  /-- A truth value. -/
  | bool (b : Bool) : Printable (.bool b)
  /-- An integer. -/
  | number {n : Number} (h : n.Integral) : Printable (.number n)
  /-- A string. -/
  | string (s : String) : Printable (.string s)
  /-- An array of such values. -/
  | array {items : List Json} (h : ∀ item ∈ items, Printable item) : Printable (.array items)
  /-- An object of such values. -/
  | object {members : List (String × Json)} (hordered : OrderedMap.Ordered members)
    (h : ∀ member ∈ members, Printable member.2) : Printable (.object members)

/-- The items of an array are brought into canonical form one by one. -/
theorem canonicalItems_eq_map (items : List Json) :
    canonicalItems items = items.map canonical := by
  induction items with
  | nil => rfl
  | cons item rest ih => rw [canonicalItems, ih, List.map_cons]

/-- The members of an object are brought into canonical form one by one. -/
theorem canonicalMembers_eq_map (members : List (String × Json)) :
    canonicalMembers members = members.map fun member => (member.1, member.2.canonical) := by
  induction members with
  | nil => rfl
  | cons member rest ih => rw [canonicalMembers, ih, List.map_cons]

/-- Such a value is canonical. -/
theorem Printable.canonical_eq {json : Json} (h : json.Printable) : json.canonical = json := by
  induction h with
  | null => rfl
  | bool b => rfl
  | number h => rfl
  | string s => rfl
  | array _ ih =>
    rw [canonical, canonicalItems_eq_map]
    exact congrArg Json.array ((List.map_congr_left ih).trans (List.map_id _))
  | @object members hordered _ ih =>
    have hself : members.map (fun member => (member.1, member.2.canonical)) = members := by
      refine (List.map_congr_left fun member hmember => ?_).trans (List.map_id _)
      rw [ih member hmember]
      rfl
    rw [canonical, canonicalMembers_eq_map, hself, OrderedMap.ofList_of_ordered hordered]

/-! ## Layouts -/

/-- Where blanks stand in the text of a value. -/
structure Layout where
  /-- What stands in front of an item, or of the end, at a level of nesting. -/
  start : Nat → List Char
  /-- What stands between the colon and the value of a member. -/
  space : List Char
  /-- Nothing but blanks stand in front. -/
  start_blank : ∀ level, ∀ c ∈ start level, isBlank c = true
  /-- Nothing but blanks stand behind a colon. -/
  space_blank : ∀ c ∈ space, isBlank c = true

/-- No blanks at all. -/
def Layout.compact : Layout where
  start _ := []
  space := []
  start_blank _ _ h := absurd h List.not_mem_nil
  space_blank _ h := absurd h List.not_mem_nil

/-- A line for every item and every member. -/
def Layout.pretty : Layout where
  start := lineStart
  space := [' ']
  start_blank level c hc := by
    rcases List.mem_cons.1 hc with rfl | hc
    · rfl
    · rw [List.eq_of_mem_replicate hc]
      rfl
  space_blank c hc := by
    rw [List.mem_singleton.1 hc]
    rfl

/-- Items with commas between them and blanks in front of each, and the closing bracket. -/
def closed (closing : Char) (start finish : List Char) : List (List Char) → List Char
  | [] => [closing]
  | first :: rest =>
    start ++ (first ++ (rest.flatMap (fun item => ',' :: (start ++ item)) ++
      (finish ++ [closing])))

mutual

/-- The characters of a value that stands at a level of nesting. -/
def spread (layout : Layout) (level : Nat) : Json → List Char
  | null => ['n', 'u', 'l', 'l']
  | bool true => ['t', 'r', 'u', 'e']
  | bool false => ['f', 'a', 'l', 's', 'e']
  | number n => n.chars
  | string s => quoted s
  | array items =>
    '[' :: closed ']' (layout.start (level + 1)) (layout.start level)
      (spreadItems layout (level + 1) items)
  | object members =>
    '\x7b' :: closed '\x7d' (layout.start (level + 1)) (layout.start level)
      (spreadMembers layout (level + 1) members)

/-- The characters of each item. -/
def spreadItems (layout : Layout) (level : Nat) : List Json → List (List Char)
  | [] => []
  | item :: rest => spread layout level item :: spreadItems layout level rest

/-- The characters of each member. -/
def spreadMembers (layout : Layout) (level : Nat) : List (String × Json) → List (List Char)
  | [] => []
  | (key, value) :: rest =>
    (quoted key ++ ':' :: (layout.space ++ spread layout level value)) ::
      spreadMembers layout level rest

end

mutual

/-- The text without blanks is that in the layout without blanks. -/
theorem spread_compact (level : Nat) : (json : Json) →
    spread .compact level json = json.compactChars
  | null | bool true | bool false | number _ | string _ | array [] | object [] => rfl
  | array (item :: rest) => by
    rw [spread, spreadItems, closed, compactChars, spread_compact (level + 1) item,
      ← spreadItems_compact level rest]
    rfl
  | object ((key, value) :: rest) => by
    rw [spread, spreadMembers, closed, compactChars, spread_compact (level + 1) value,
      ← spreadMembers_compact level rest]
    simp [Layout.compact]

/-- So are the further items of an array. -/
theorem spreadItems_compact (level : Nat) : (items : List Json) →
    (spreadItems .compact (level + 1) items).flatMap (fun item => ',' :: item) ++ [']']
      = compactItems items
  | [] => rfl
  | item :: rest => by
    rw [spreadItems, compactItems, ← spread_compact (level + 1) item,
      ← spreadItems_compact level rest]
    simp

/-- So are the further members of an object. -/
theorem spreadMembers_compact (level : Nat) : (members : List (String × Json)) →
    (spreadMembers .compact (level + 1) members).flatMap (fun member => ',' :: member) ++ ['\x7d']
      = compactMembers members
  | [] => rfl
  | (key, value) :: rest => by
    rw [spreadMembers, compactMembers, ← spread_compact (level + 1) value,
      ← spreadMembers_compact level rest]
    simp [Layout.compact]

end

mutual

/-- The text on several lines is that in the layout with a line for every item. -/
theorem spread_pretty (level : Nat) : (json : Json) →
    spread .pretty level json = json.prettyChars level
  | null | bool true | bool false | number _ | string _ | array [] | object [] => rfl
  | array (item :: rest) => by
    rw [spread, spreadItems, closed, prettyChars, spread_pretty (level + 1) item,
      ← spreadItems_pretty level rest]
    rfl
  | object ((key, value) :: rest) => by
    rw [spread, spreadMembers, closed, prettyChars, spread_pretty (level + 1) value,
      ← spreadMembers_pretty level rest]
    simp [Layout.pretty]

/-- So are the further items of an array. -/
theorem spreadItems_pretty (level : Nat) : (items : List Json) →
    (spreadItems .pretty (level + 1) items).flatMap
        (fun item => ',' :: (lineStart (level + 1) ++ item)) ++ (lineStart level ++ [']'])
      = prettyItems level items
  | [] => rfl
  | item :: rest => by
    rw [spreadItems, prettyItems, ← spread_pretty (level + 1) item,
      ← spreadItems_pretty level rest]
    simp

/-- So are the further members of an object. -/
theorem spreadMembers_pretty (level : Nat) : (members : List (String × Json)) →
    (spreadMembers .pretty (level + 1) members).flatMap
        (fun member => ',' :: (lineStart (level + 1) ++ member)) ++ (lineStart level ++ ['\x7d'])
      = prettyMembers level members
  | [] => rfl
  | (key, value) :: rest => by
    rw [spreadMembers, prettyMembers, ← spread_pretty (level + 1) value,
      ← spreadMembers_pretty level rest]
    simp [Layout.pretty]

end

/-! ## Readers of items -/

/-- A reader takes the given characters, also behind blanks, for a thing that fits, and refuses them
otherwise. -/
def Takes {α : Type} (read : List Char → Option (α × List Char)) (cs : List Char) (a : α)
    (fits : Prop) [Decidable fits] : Prop :=
  ∀ blanks rest, (∀ c ∈ blanks, isBlank c = true) → EndsNumber rest →
    read (blanks ++ (cs ++ rest)) = if fits then some (a, rest) else none

/-- The characters start with neither a blank nor the closing bracket. -/
def Opens (closing : Char) (cs : List Char) : Prop :=
  ∃ c rest, cs = c :: rest ∧ isBlank c = false ∧ c ≠ closing

/-- A character that neither goes on with a number nor is a blank. -/
def IsSeparator (c : Char) : Prop :=
  isBlank c = false ∧ c.isDigit = false ∧ c ≠ '.' ∧ c ≠ 'e' ∧ c ≠ 'E'

/-- A number ends in front of blanks and a separator. -/
theorem endsNumber_append {blanks : List Char} (hblanks : ∀ c ∈ blanks, isBlank c = true)
    {c : Char} (hc : IsSeparator c) (rest : List Char) : EndsNumber (blanks ++ c :: rest) := by
  intro d hd
  rcases blanks with _ | ⟨blank, blanks⟩
  · cases hd
    exact hc.2
  · obtain rfl : blank = d := by simpa using hd
    have hblank := hblanks blank List.mem_cons_self
    simp only [isBlank, Bool.or_eq_true, beq_iff_eq] at hblank
    rcases hblank with ((rfl | rfl) | rfl) | rfl <;> decide

section Items

variable {α β : Type} {read : List Char → Option (α × List Char)} {write : β → List Char}
  {item : β → α} {fits : β → Prop} [DecidablePred fits] {start finish : List Char} {closing : Char}

/-- One or more items are read up to the closing bracket, if each fits. -/
theorem itemsUpTo_separated (hstart : ∀ c ∈ start, isBlank c = true)
    (hfinish : ∀ c ∈ finish, isBlank c = true) (hclosing : IsSeparator closing) {x : β}
    {xs : List β} (hread : ∀ y ∈ x :: xs, Takes read (write y) (item y) (fits y))
    (hcomma : closing ≠ ',')
    (rest : List Char) {bound : Nat} (hbound : xs.length < bound) :
    itemsUpTo read closing bound (start ++ (write x ++
        ((xs.map write).flatMap (fun item => ',' :: (start ++ item)) ++
          (finish ++ closing :: rest))))
      = if ∀ y ∈ x :: xs, fits y then some ((x :: xs).map item, rest) else none := by
  obtain _ | bound := bound
  · exact absurd hbound (Nat.not_lt_zero _)
  induction xs generalizing x bound with
  | nil =>
    have hends := endsNumber_append hfinish hclosing rest
    rw [itemsUpTo, List.map_nil, List.flatMap_nil, List.nil_append,
      hread x List.mem_cons_self start _ hstart hends]
    simp only [List.forall_mem_singleton]
    split_ifs
    · simp only [skipBlanks_append hfinish, skipBlanks_cons hclosing.1, if_true]
      rfl
    · rfl
  | cons y ys ih =>
    obtain _ | bound := bound
    · exact absurd hbound (by simp)
    have hmore := ih (x := y) (fun z hz => hread z (List.mem_cons_of_mem x hz)) bound
      (Nat.lt_of_succ_lt_succ hbound)
    have hseparator : IsSeparator ',' := ⟨rfl, by decide⟩
    have hshape : ((y :: ys).map write).flatMap (fun item => ',' :: (start ++ item)) ++
        (finish ++ closing :: rest) = [] ++ ',' :: (start ++ (write y ++
          ((ys.map write).flatMap (fun item => ',' :: (start ++ item)) ++
            (finish ++ closing :: rest)))) := by
      simp
    rw [hshape, itemsUpTo, hread x List.mem_cons_self start _ hstart
      (endsNumber_append (by simp) hseparator _)]
    simp only [List.forall_mem_cons] at hmore ⊢
    by_cases hx : fits x
    · simp only [hx, if_true, true_and, List.nil_append, skipBlanks_cons hseparator.1,
        hcomma.symm, if_false]
      rw [hmore]
      split_ifs <;> rfl
    · simp only [hx, if_false, false_and]

/-- Items are read up to the closing bracket, if each fits. -/
theorem items_closed (hstart : ∀ c ∈ start, isBlank c = true)
    (hfinish : ∀ c ∈ finish, isBlank c = true) (hclosing : IsSeparator closing)
    (hcomma : closing ≠ ',') {xs : List β}
    (hread : ∀ x ∈ xs, Opens closing (write x) ∧ Takes read (write x) (item x) (fits x))
    (rest : List Char) :
    items read closing (closed closing start finish (xs.map write) ++ rest)
      = if ∀ x ∈ xs, fits x then some (xs.map item, rest) else none := by
  rcases xs with _ | ⟨x, xs⟩
  · rw [items, List.map_nil, closed, List.singleton_append, skipBlanks_cons hclosing.1]
    simp
  · obtain ⟨c, cs, hc, hblank, hne⟩ := (hread x List.mem_cons_self).1
    have hshape : closed closing start finish ((x :: xs).map write) ++ rest
        = start ++ (write x ++ ((xs.map write).flatMap (fun item => ',' :: (start ++ item)) ++
          (finish ++ closing :: rest))) := by
      simp [closed]
    -- every further item has a comma in front
    have hlength : xs.length
        ≤ ((xs.map write).flatMap fun item => ',' :: (start ++ item)).length := by
      clear hread hshape
      induction xs with
      | nil => exact Nat.zero_le _
      | cons y ys ih =>
        simp only [List.map_cons, List.flatMap_cons, List.length_append, List.length_cons]
        omega
    have hbound : xs.length
        < (closed closing start finish ((x :: xs).map write) ++ rest).length := by
      rw [hshape]
      simp only [List.length_append, List.length_cons]
      omega
    have hitems := itemsUpTo_separated hstart hfinish hclosing (fun y hy => (hread y hy).2) hcomma
      rest hbound
    rw [← hshape] at hitems
    rw [items, ← hitems]
    have hskip : skipBlanks (closed closing start finish ((x :: xs).map write) ++ rest)
        = c :: (cs ++ ((xs.map write).flatMap (fun item => ',' :: (start ++ item)) ++
          (finish ++ closing :: rest))) := by
      rw [hshape, skipBlanks_append hstart, hc, List.cons_append, skipBlanks_cons hblank]
    simp only [hskip, hne, if_false]

end Items

/-! ## Values -/

variable {c : Char} {cs blanks : List Char}

/-- What starts with neither bracket is read as a value that is neither array nor object. -/
theorem value_append_cons (hblanks : ∀ c ∈ blanks, isBlank c = true) (hc : isBlank c = false)
    (harray : c ≠ '[') (hobject : c ≠ '\x7b') (depth : Nat) (cs : List Char) :
    value depth (blanks ++ c :: cs) = value.scalar (c :: cs) := by
  cases depth with
  | zero => rw [value, skipBlanks_append hblanks, skipBlanks_cons hc]
  | succ depth =>
    rw [value, skipBlanks_append hblanks, skipBlanks_cons hc]
    split
    · rename_i heq
      exact absurd (List.cons.inj heq).1 harray
    · rename_i heq
      exact absurd (List.cons.inj heq).1 hobject
    · rfl

/-- A value that is read as neither array nor object is taken on every level. -/
theorem takes_of_scalar {json : Json} (hc : isBlank c = false) (harray : c ≠ '[')
    (hobject : c ≠ '\x7b') (hnesting : json.nesting = 0)
    (h : ∀ rest, EndsNumber rest → value.scalar (c :: cs ++ rest) = some (json, rest))
    (depth : Nat) : Takes (value depth) (c :: cs) json (json.nesting ≤ depth) := by
  intro blanks rest hblanks hrest
  rw [List.cons_append, value_append_cons hblanks hc harray hobject, ← List.cons_append,
    h rest hrest, if_pos (by omega)]

/-- What starts as a number does starts with neither a blank nor a bracket. -/
theorem of_number_start (hc : c.isDigit = true ∨ c = '-') :
    isBlank c = false ∧ c ≠ ']' ∧ c ≠ '[' ∧ c ≠ '\x7b' := by
  refine ⟨?_, ?_, ?_, ?_⟩
  · by_contra hblank
    simp only [isBlank, Bool.not_eq_false, Bool.or_eq_true, beq_iff_eq] at hblank
    rcases hblank with ((rfl | rfl) | rfl) | rfl <;> exact absurd hc (by decide)
  all_goals
    rintro rfl
    exact absurd hc (by decide)

/-- What starts as a number does is read as a number. -/
theorem scalar_of_number (hc : c.isDigit = true ∨ c = '-') (cs : List Char) :
    value.scalar (c :: cs) = (number? (c :: cs)).map fun (n, rest) => (.number n, rest) := by
  unfold value.scalar
  split
  case h_5 => rfl
  all_goals
    rename_i heq
    cases heq
    exact absurd hc (by decide)

/-- A quoted string is read as the string. -/
theorem scalar_quoted (s : String) (rest : List Char) :
    value.scalar (quoted s ++ rest) = some (.string s, rest) := by
  have hbody := stringBody_flatMap_escape s.toList rest
  rw [quoted, List.cons_append, List.append_assoc, List.singleton_append, value.scalar, hbody]
  simp

/-- A member is taken where its value is. -/
theorem takes_member {read : List Char → Option (Json × List Char)} {space : List Char}
    (hspace : ∀ c ∈ space, isBlank c = true) {value : Json} {fits : Prop} [Decidable fits]
    (h : Takes read cs value fits) (key : String) :
    Takes (member read) (quoted key ++ ':' :: (space ++ cs)) (key, value) fits := by
  intro blanks rest hblanks hrest
  have hbody := stringBody_flatMap_escape key.toList (':' :: (space ++ (cs ++ rest)))
  rw [member, skipBlanks_append hblanks, quoted]
  simp only [List.cons_append, List.append_assoc, List.nil_append,
    skipBlanks_cons (show isBlank '"' = false from rfl), hbody,
    skipBlanks_cons (show isBlank ':' = false from rfl), h space rest hspace hrest]
  split_ifs <;> simp

/-- What is written for the items of an array, one by one. -/
theorem spreadItems_eq_map (layout : Layout) (level : Nat) (items : List Json) :
    spreadItems layout level items = items.map (spread layout level) := by
  induction items with
  | nil => rfl
  | cons item rest ih => rw [spreadItems, ih, List.map_cons]

/-- The characters of a member at a level of nesting. -/
def memberChars (layout : Layout) (level : Nat) (member : String × Json) : List Char :=
  quoted member.1 ++ ':' :: (layout.space ++ spread layout level member.2)

/-- What is written for the members of an object, one by one. -/
theorem spreadMembers_eq_map (layout : Layout) (level : Nat) (members : List (String × Json)) :
    spreadMembers layout level members = members.map (memberChars layout level) := by
  induction members with
  | nil => rfl
  | cons member rest ih => rw [spreadMembers, ih, List.map_cons, memberChars]

/-- What starts with an opening bracket is no scalar. -/
theorem scalar_bracket (hc : c = '[' ∨ c = '\x7b') (cs : List Char) :
    value.scalar (c :: cs) = none := by
  rcases hc with rfl | rfl <;> rfl

/-- A value in brackets is refused on the last level. -/
theorem takes_of_bracket {json : Json} {n : Nat} (hc : c = '[' ∨ c = '\x7b')
    (hnesting : json.nesting = n + 1)
    (h : ∀ depth blanks rest, (∀ c ∈ blanks, isBlank c = true) →
      value (depth + 1) (blanks ++ c :: (cs ++ rest))
        = if n ≤ depth then some (json, rest) else none) (depth : Nat) :
    Takes (value depth) (c :: cs) json (json.nesting ≤ depth) := by
  intro blanks rest hblanks _
  have hblank : isBlank c = false := by rcases hc with rfl | rfl <;> rfl
  simp only [hnesting]
  cases depth with
  | zero =>
    rw [List.cons_append, value, skipBlanks_append hblanks, skipBlanks_cons hblank,
      scalar_bracket hc, if_neg (Nat.not_succ_le_zero n)]
  | succ depth =>
    rw [List.cons_append, h depth blanks rest hblanks]
    simp only [Nat.add_le_add_iff_right]

/-- The characters of a value start with neither a blank nor the closing bracket of an array. -/
theorem opens_spread {json : Json} (h : json.Printable) (layout : Layout) (level : Nat) :
    Opens ']' (spread layout level json) := by
  cases h with
  | null => exact ⟨_, _, rfl, by decide⟩
  | bool b => cases b <;> exact ⟨_, _, rfl, by decide⟩
  | number hn =>
    obtain ⟨c, cs, hcs, hc⟩ := exists_chars_eq_cons hn
    obtain ⟨hblank, hclosing, _⟩ := of_number_start hc
    exact ⟨c, cs, hcs, hblank, hclosing⟩
  | string s => exact ⟨_, _, rfl, by decide⟩
  | array _ => exact ⟨_, _, rfl, by decide⟩
  | object _ _ => exact ⟨_, _, rfl, by decide⟩

/-- In either layout a value is read as what was written, where arrays and objects may be nested as
deeply as they are in it, and is refused otherwise. -/
theorem takes_spread {json : Json} (h : json.Printable) (layout : Layout) (level depth : Nat) :
    Takes (value depth) (spread layout level json) json (json.nesting ≤ depth) := by
  induction h generalizing level depth with
  | null => exact takes_of_scalar (by decide) (by decide) (by decide) rfl (fun _ _ => rfl) depth
  | bool b =>
    cases b <;>
      exact takes_of_scalar (by decide) (by decide) (by decide) rfl (fun _ _ => rfl) depth
  | @number n hn =>
    obtain ⟨c, cs, hcs, hc⟩ := exists_chars_eq_cons hn
    obtain ⟨hblank, _, harray, hobject⟩ := of_number_start hc
    rw [spread, hcs]
    refine takes_of_scalar hblank harray hobject rfl (fun rest hrest => ?_) depth
    rw [List.cons_append, scalar_of_number hc, ← List.cons_append, ← hcs, number?_chars hn hrest]
    rfl
  | string s =>
    exact takes_of_scalar (by decide) (by decide) (by decide) rfl
      (fun rest _ => scalar_quoted s rest) depth
  | @array xs hxs ih =>
    rw [spread, spreadItems_eq_map]
    refine takes_of_bracket (.inl rfl) rfl (fun depth blanks rest hblanks => ?_) depth
    have hread : ∀ item ∈ xs, Opens ']' (spread layout (level + 1) item) ∧
        Takes (value depth) (spread layout (level + 1) item) (id item) (item.nesting ≤ depth) :=
      fun item hitem =>
        ⟨opens_spread (hxs item hitem) layout (level + 1), ih item hitem (level + 1) depth⟩
    have hitems := items_closed (layout.start_blank (level + 1)) (layout.start_blank level)
      ⟨rfl, by decide⟩ (by decide) hread rest
    rw [value, skipBlanks_append hblanks, skipBlanks_cons rfl]
    simp only [hitems, List.map_id, itemsNesting_le_iff]
    split_ifs <;> rfl
  | @object members _ _ ih =>
    rw [spread, spreadMembers_eq_map]
    refine takes_of_bracket (.inr rfl) rfl (fun depth blanks rest hblanks => ?_) depth
    have hread : ∀ entry ∈ members, Opens '\x7d' (memberChars layout (level + 1) entry) ∧
        Takes (member (value depth)) (memberChars layout (level + 1) entry) (id entry)
          (entry.2.nesting ≤ depth) := fun entry hentry =>
      ⟨⟨_, _, rfl, by decide⟩,
        takes_member layout.space_blank (ih entry hentry (level + 1) depth) entry.1⟩
    have hmembers := items_closed (layout.start_blank (level + 1)) (layout.start_blank level)
      ⟨rfl, by decide⟩ (by decide) hread rest
    rw [value, skipBlanks_append hblanks, skipBlanks_cons rfl]
    simp only [hmembers, List.map_id, membersNesting_le_iff]
    split_ifs <;> rfl

/-! ## Texts -/

/-- The text of a value in either layout is read as the value, unless more arrays and objects are
nested in it than may be. -/
theorem parse?_spread {json : Json} (h : json.Printable) (layout : Layout) :
    parse? (String.ofList (spread layout 0 json))
      = if json.nesting ≤ maxDepth then some json else none := by
  have hvalue := takes_spread h layout 0 maxDepth [] [] (by simp) endsNumber_nil
  rw [List.nil_append, List.append_nil] at hvalue
  rw [parse?, ofText?, String.toList_ofList, hvalue]
  split_ifs
  · exact congrArg some h.canonical_eq
  · rfl

/-- The text without blanks is read as the value. -/
theorem parse?_compact {json : Json} (h : json.Printable) :
    parse? json.compact = if json.nesting ≤ maxDepth then some json else none := by
  rw [compact, ← spread_compact 0]
  exact parse?_spread h .compact

/-- The text on several lines is read as the value. -/
theorem parse?_pretty {json : Json} (h : json.Printable) :
    parse? json.pretty = if json.nesting ≤ maxDepth then some json else none := by
  rw [pretty, ← spread_pretty 0]
  exact parse?_spread h .pretty

end DynProto.Json
