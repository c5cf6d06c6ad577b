import DynProto.Proofs.OrderedMap
import DynProto.Schema.Enum

/-!
# Looking up the values of an enum

The two tables of an enum are filled in one pass with opposite rules: declaring a value changes what
its name stands for (`get?_byName_declare`), whereas a number goes on with the name that it has
(`get?_byNumber_declare`). So after the pass a name stands for the number of the last value with it
and a number goes by the name of the first one (`numberOf?_eq_find?`, `nameOf?_eq_find?`).

If no name is declared twice, the tables are consistent however often a number is: the name that a
number goes by stands for this number (`numberOf?_of_nameOf?`). With a repeated name this can fail:
the first of two values with one name gives its number the name, and the last one may give the name
another number.
-/

namespace DynProto

/-! ## One more value -/

namespace EnumTables

/-- The name of the value stands for its number, and every other name for what it stood for. -/
theorem get?_byName_declare (tables : EnumTables) (value : String × Int32) (name : String) :
    OrderedMap.get? name (tables.declare value).byName
      = if name = value.1 then some value.2 else OrderedMap.get? name tables.byName := by
  split_ifs with h
  · rw [h]
    exact OrderedMap.get?_insert_self value.1 value.2 tables.byName
  · exact OrderedMap.get?_insert_of_ne h value.2 tables.byName

/-- A number that has a name keeps it, and the number of the value has a name now. -/
theorem get?_byNumber_declare (tables : EnumTables) (value : String × Int32) (number : Int32) :
    OrderedMap.get? number (tables.declare value).byNumber
      = (OrderedMap.get? number tables.byNumber).or
          (if number = value.2 then some value.1 else none) :=
  OrderedMap.get?_insertNew value.2 number value.1 tables.byNumber

end EnumTables

namespace EnumType

variable {type : EnumType} {name : String} {number : Int32}

/-! ## All values -/

/-- The last value is entered last. -/
theorem tables_concat (typeName : String) (values : List (String × Int32))
    (value : String × Int32) :
    (EnumType.mk typeName (values ++ [value])).tables
      = (EnumType.mk typeName values).tables.declare value :=
  List.foldl_concat EnumTables.declare {} value values

/-- A name is found at the last value that has it. -/
theorem numberOf?_eq_find? (type : EnumType) (name : String) :
    type.numberOf? name
      = (type.values.reverse.find? fun value => value.1 == name).map Prod.snd := by
  obtain ⟨typeName, values⟩ := type
  induction values using List.reverseRecOn with
  | nil => rfl
  | append_singleton values value ih =>
    rw [numberOf?] at ih ⊢
    rw [tables_concat, EnumTables.get?_byName_declare, ih, List.reverse_concat, List.find?_cons]
    by_cases h : name = value.1
    · simp [h]
    · have hne : (value.1 == name) = false := beq_eq_false_iff_ne.2 (Ne.symm h)
      simp [h, hne]

/-- A number is found at the first value that has it. -/
theorem nameOf?_eq_find? (type : EnumType) (number : Int32) :
    type.nameOf? number
      = (type.values.find? fun value => value.2 == number).map Prod.fst := by
  obtain ⟨typeName, values⟩ := type
  induction values using List.reverseRecOn with
  | nil => rfl
  | append_singleton values value ih =>
    rw [nameOf?] at ih ⊢
    rw [tables_concat, EnumTables.get?_byNumber_declare, ih, List.find?_append, Option.map_or,
      List.find?_singleton]
    by_cases h : number = value.2
    · simp [h]
    · simp [h, Ne.symm h]

/-- A name stands for the number of the last value with this name. -/
theorem numberOf?_eq_some_iff : type.numberOf? name = some number ↔
    ∃ before after, type.values = before ++ (name, number) :: after ∧
      ∀ later ∈ after, later.1 ≠ name := by
  rw [numberOf?_eq_find?, Option.map_eq_some_iff]
  constructor
  · rintro ⟨⟨found, _⟩, hfind, rfl⟩
    obtain ⟨hfound, after, before, hvalues, hafter⟩ := List.find?_eq_some_iff_append.1 hfind
    obtain rfl : found = name := beq_iff_eq.1 hfound
    refine ⟨before.reverse, after.reverse, ?_, fun later hlater => ?_⟩
    · rw [← List.reverse_eq_iff.2 hvalues.symm]
      simp
    · simpa using hafter later (List.mem_reverse.1 hlater)
  · rintro ⟨before, after, hvalues, hafter⟩
    refine ⟨(name, number), List.find?_eq_some_iff_append.2 ⟨beq_self_eq_true name, after.reverse,
      before.reverse, by simp [hvalues], fun later hlater => ?_⟩, rfl⟩
    simpa using hafter later (List.mem_reverse.1 hlater)

/-- A name stands for nothing if no value has it. -/
theorem numberOf?_eq_none_iff :
    type.numberOf? name = none ↔ ∀ value ∈ type.values, value.1 ≠ name := by
  simp [numberOf?_eq_find?]

/-- A number goes by the name of the first value with this number. -/
theorem nameOf?_eq_some_iff : type.nameOf? number = some name ↔
    ∃ before after, type.values = before ++ (name, number) :: after ∧
      ∀ earlier ∈ before, earlier.2 ≠ number := by
  rw [nameOf?_eq_find?, Option.map_eq_some_iff]
  constructor
  · rintro ⟨⟨_, found⟩, hfind, rfl⟩
    obtain ⟨hfound, before, after, hvalues, hbefore⟩ := List.find?_eq_some_iff_append.1 hfind
    obtain rfl : found = number := beq_iff_eq.1 hfound
    exact ⟨before, after, hvalues, fun earlier hearlier => by simpa using hbefore earlier hearlier⟩
  · rintro ⟨before, after, hvalues, hbefore⟩
    refine ⟨(name, number), List.find?_eq_some_iff_append.2 ⟨beq_self_eq_true number, before, after,
      hvalues, fun earlier hearlier => ?_⟩, rfl⟩
    simpa using hbefore earlier hearlier

/-- A number goes by no name if no value has it. -/
theorem nameOf?_eq_none_iff :
    type.nameOf? number = none ↔ ∀ value ∈ type.values, value.2 ≠ number := by
  simp [nameOf?_eq_find?]

/-- The number of a value goes by some name. -/
theorem exists_nameOf? {value : String × Int32} (h : value ∈ type.values) :
    ∃ name, type.nameOf? value.2 = some name := by
  rw [← Option.isSome_iff_exists, ← Option.ne_none_iff_isSome]
  exact fun hnone => nameOf?_eq_none_iff.1 hnone value h rfl

/-! ## Values with distinct names -/

/-- If no name occurs twice, a name stands for the number that is declared with it. -/
theorem numberOf?_eq_some_iff_mem (h : (type.values.map Prod.fst).Nodup) :
    type.numberOf? name = some number ↔ (name, number) ∈ type.values := by
  rw [numberOf?_eq_some_iff]
  constructor
  · rintro ⟨before, after, hvalues, _⟩
    rw [hvalues]
    exact List.mem_append_right before List.mem_cons_self
  · intro hmem
    obtain ⟨before, after, hvalues⟩ := List.append_of_mem hmem
    refine ⟨before, after, hvalues, fun later hlater heq => ?_⟩
    rw [hvalues, List.map_append, List.map_cons] at h
    have hnot := (List.nodup_cons.1 (List.nodup_append.1 h).2.1).1
    exact hnot (List.mem_map.2 ⟨later, hlater, heq⟩)

/-- If no name occurs twice, the name of a number stands for this number. -/
theorem numberOf?_of_nameOf? (h : (type.values.map Prod.fst).Nodup)
    (hname : type.nameOf? number = some name) : type.numberOf? name = some number := by
  obtain ⟨before, after, hvalues, _⟩ := nameOf?_eq_some_iff.1 hname
  rw [numberOf?_eq_some_iff_mem h, hvalues]
  exact List.mem_append_right before List.mem_cons_self

/-! ## Both directions -/

/-- An enum answers as its list of values says. -/
structure Declares (type : EnumType) (values : List (String × Int32)) : Prop where
  /-- The values are listed as they are declared. -/
  listed : type.values = values
  /-- A name stands for the number of the last value with this name. -/
  number : ∀ name number, type.numberOf? name = some number ↔
    ∃ before after, values = before ++ (name, number) :: after ∧ ∀ later ∈ after, later.1 ≠ name
  /-- A name that no value has stands for nothing. -/
  noNumber : ∀ name, type.numberOf? name = none ↔ ∀ value ∈ values, value.1 ≠ name
  /-- A number goes by the name of the first value with this number. -/
  name : ∀ number name, type.nameOf? number = some name ↔
    ∃ before after, values = before ++ (name, number) :: after ∧
      ∀ earlier ∈ before, earlier.2 ≠ number
  /-- A number that no value has goes by no name. -/
  noName : ∀ number, type.nameOf? number = none ↔ ∀ value ∈ values, value.2 ≠ number

/-- The two directions in which the values of an enum are looked up fit together. -/
structure Consistent (type : EnumType) (values : List (String × Int32)) : Prop where
  /-- A name stands for the number that is declared with it. -/
  number : ∀ name number, type.numberOf? name = some number ↔ (name, number) ∈ values
  /-- The number of a value goes by a name that stands for this number. -/
  numberOfName : ∀ value ∈ values, ∃ name,
    type.nameOf? value.2 = some name ∧ type.numberOf? name = some value.2

/-- An enum answers as its list of values says, whatever is repeated in it; and if no name is, the
two directions fit together. -/
theorem declares_and_consistent (typeName : String) (values : List (String × Int32)) :
    Declares ⟨typeName, values⟩ values ∧
      ((values.map Prod.fst).Nodup → Consistent ⟨typeName, values⟩ values) := by
  have hdeclares : Declares ⟨typeName, values⟩ values :=
    ⟨rfl, fun _ _ => numberOf?_eq_some_iff, fun _ => numberOf?_eq_none_iff,
      fun _ _ => nameOf?_eq_some_iff, fun _ => nameOf?_eq_none_iff⟩
  refine ⟨hdeclares, fun h => ⟨fun _ _ => numberOf?_eq_some_iff_mem h, fun value hvalue => ?_⟩⟩
  obtain ⟨name, hname⟩ := @exists_nameOf? ⟨typeName, values⟩ value hvalue
  exact ⟨name, hname, numberOf?_of_nameOf? h hname⟩

/-- Two names for one number leave an enum consistent. -/
theorem declares_and_consistent_alias :
    Declares ⟨"Genre", [("NONE", 0), ("NOVEL", 1), ("FICTION", 1)]⟩
        [("NONE", 0), ("NOVEL", 1), ("FICTION", 1)] ∧
      Consistent ⟨"Genre", [("NONE", 0), ("NOVEL", 1), ("FICTION", 1)]⟩
        [("NONE", 0), ("NOVEL", 1), ("FICTION", 1)] :=
  have h := declares_and_consistent "Genre" [("NONE", 0), ("NOVEL", 1), ("FICTION", 1)]
  ⟨h.1, h.2 (by decide)⟩

-- two numbers for one name do not: the name of the first number stands for the second one
example : (EnumType.mk "Genre" [("NOVEL", 1), ("NOVEL", 2)]).nameOf? 1 = some "NOVEL" ∧
    (EnumType.mk "Genre" [("NOVEL", 1), ("NOVEL", 2)]).numberOf? "NOVEL" = some 2 := by
  decide

end EnumType

end DynProto
