import DynProto.Proofs.Name.CamelCase
import DynProto.Proofs.Registry.Reachable

/-!
# Keys of plain objects

A field appears in a plain object under its local name, or under its declared name where several
fields share the local name. A key is looked up among the declared names first. So a key that is a
local name leads back to its field unless it is the declared name of another one, and with distinct
declared names and no names given for JSON nothing else can go wrong (`plainKeyed_iff`). Among
identifiers it takes a leading underscore for that: `_foo` has the local name `Foo`
(`plainKeyed_of_identifiers`).
-/

namespace DynProto.MessageType

variable {type : MessageType} {i j : Nat} {f g : Field}

/-! ## Names of fields -/

/-- A name is shared if two places have it as their local name. -/
theorem isSharedName_iff {localName : String} :
    type.isSharedName localName = true ↔ ∃ (i j : Nat) (f g : Field), i < j ∧
      type.fields[i]? = some f ∧ type.fields[j]? = some g ∧ f.localName = localName ∧
      g.localName = localName := by
  have htwo : type.isSharedName localName = true ↔
      2 ≤ (type.fields.map Field.localName).count localName := by
    unfold isSharedName
    rw [decide_eq_true_iff]
    rfl
  rw [htwo, ← List.duplicate_iff_two_le_count, List.duplicate_iff_exists_distinct_get]
  constructor
  · rintro ⟨⟨i, hi⟩, ⟨j, hj⟩, hlt, hf, hg⟩
    rw [List.get_eq_getElem, List.getElem_map] at hf hg
    rw [List.length_map] at hi hj
    exact ⟨i, j, _, _, hlt, List.getElem?_eq_getElem hi, List.getElem?_eq_getElem hj, hf.symm,
      hg.symm⟩
  · rintro ⟨i, j, f, g, hlt, hf, hg, rfl, hname⟩
    obtain ⟨hi, rfl⟩ := List.getElem?_eq_some_iff.1 hf
    obtain ⟨hj, rfl⟩ := List.getElem?_eq_some_iff.1 hg
    refine ⟨⟨i, by simpa using hi⟩, ⟨j, by simpa using hj⟩, hlt, ?_, ?_⟩
    · simp
    · simp [hname]

/-- A local name that is not shared belongs to one place. -/
theorem eq_of_localName_eq (hf : type.fields[i]? = some f) (hg : type.fields[j]? = some g)
    (hshared : ¬ type.isSharedName f.localName = true) (hname : g.localName = f.localName) :
    i = j := by
  by_contra hne
  rcases Nat.lt_or_gt_of_ne hne with hlt | hlt
  · exact hshared (isSharedName_iff.2 ⟨i, j, f, g, hlt, hf, hg, rfl, hname⟩)
  · exact hshared (isSharedName_iff.2 ⟨j, i, g, f, hlt, hg, hf, hname, rfl⟩)

/-- Without a name given for JSON a field answers to its local name and its declared name. -/
theorem answersTo_iff {field : Field} (hjson : field.givenJsonName = none) {key : String} :
    field.answersTo key = true ↔ field.localName = key ∨ field.name = key := by
  simp only [Field.answersTo, Field.jsonName, hjson, Option.getD_none, Bool.or_eq_true, beq_iff_eq]
  tauto

/-! ## Looking up keys -/

/-- Where declared names are distinct, they lead to the places of their fields. -/
theorem indexOf?_name (hnames : (type.fields.map Field.name).Nodup)
    (hf : type.fields[i]? = some f) : type.indexOf? f.name = some i := by
  rw [indexOf?, findIdx?_of_nodup hnames hf, Option.some_or]

/-- A local name that is not shared leads to the place of its field, unless it is the declared name
of a field. -/
theorem indexOf?_localName (hjson : ∀ field ∈ type.fields, field.givenJsonName = none)
    (hf : type.fields[i]? = some f) (hshared : ¬ type.isSharedName f.localName = true)
    (hname : ∀ field ∈ type.fields, field.name ≠ f.localName) :
    type.indexOf? f.localName = some i := by
  have hnone : (type.fields.findIdx? fun field => field.name == f.localName) = none := by
    rw [List.findIdx?_eq_none_iff]
    exact fun field hfield => beq_eq_false_iff_ne.2 (hname field hfield)
  rw [indexOf?, hnone, Option.none_or]
  obtain ⟨hi, rfl⟩ := List.getElem?_eq_some_iff.1 hf
  refine List.findIdx?_eq_some_iff_getElem.2 ⟨hi, ?_, fun j hj hanswers => ?_⟩
  · exact (answersTo_iff (hjson _ (List.getElem_mem hi))).2 (.inl rfl)
  · have hmem := List.getElem_mem (Nat.lt_trans hj hi)
    rcases (answersTo_iff (hjson _ hmem)).1 hanswers with hlocal | hdeclared
    · exact Nat.ne_of_gt hj (eq_of_localName_eq hf (List.getElem?_eq_getElem _) hshared hlocal)
    · exact hname _ hmem hdeclared

/-! ## Plain keys -/

/-- The plain key of a field is at its place. -/
theorem getElem?_plainKeys (hf : type.fields[i]? = some f) :
    type.plainKeys[i]? = some (type.plainKey f) := by
  rw [plainKeys, List.getElem?_map, hf, Option.map_some]

/-- Where plain keys lead to their fields, they are distinct. -/
theorem PlainKeyed.nodup (h : type.PlainKeyed) : type.plainKeys.Nodup := by
  rw [List.nodup_iff_getElem?_ne_getElem?]
  intro i j hij hj heq
  have hsome := List.getElem?_eq_getElem hj
  have hi := h i _ (heq.trans hsome)
  rw [h j _ hsome] at hi
  exact Nat.ne_of_gt hij (Option.some.inj hi)

/-- A local name that is used as a key is not the declared name of another field. -/
def Unclashed (type : MessageType) : Prop :=
  ∀ (i j : Nat) (f g : Field), type.fields[i]? = some f → type.fields[j]? = some g →
    g.name = f.localName → type.isSharedName f.localName = true ∨ i = j

/-- Where plain keys lead to their fields, no key is the declared name of another field. -/
theorem PlainKeyed.unclashed (h : type.PlainKeyed) (hnames : (type.fields.map Field.name).Nodup) :
    type.Unclashed := by
  intro i j f g hf hg hname
  by_cases hshared : type.isSharedName f.localName = true
  · exact .inl hshared
  · have hi := h i _ (getElem?_plainKeys hf)
    rw [plainKey, if_neg hshared, ← hname, indexOf?_name hnames hg] at hi
    exact .inr (Option.some.inj hi).symm

/-- Where no key is the declared name of another field, plain keys lead to their fields. -/
theorem Unclashed.plainKeyed (h : type.Unclashed) (hnames : (type.fields.map Field.name).Nodup)
    (hjson : ∀ field ∈ type.fields, field.givenJsonName = none) : type.PlainKeyed := by
  intro i key hkey
  rw [plainKeys, List.getElem?_map, Option.map_eq_some_iff] at hkey
  obtain ⟨f, hf, rfl⟩ := hkey
  rw [plainKey]
  split_ifs with hshared
  · exact indexOf?_name hnames hf
  · by_cases hname : ∀ field ∈ type.fields, field.name ≠ f.localName
    · exact indexOf?_localName hjson hf hshared hname
    · push Not at hname
      obtain ⟨g, hg, hname⟩ := hname
      obtain ⟨j, hg⟩ := List.mem_iff_getElem?.1 hg
      obtain hshared' | rfl := h i j f g hf hg hname
      · exact absurd hshared' hshared
      · rw [← hname]
        exact indexOf?_name hnames hg

/-- With distinct declared names and no names given for JSON, the plain keys are distinct and lead
to their fields exactly if no local name that is used as a key is the declared name of another
field. -/
theorem plainKeyed_iff (hnames : (type.fields.map Field.name).Nodup)
    (hjson : ∀ field ∈ type.fields, field.givenJsonName = none) :
    type.plainKeys.Nodup ∧ type.PlainKeyed ↔ type.Unclashed := by
  constructor
  · intro h
    exact h.2.unclashed hnames
  · intro h
    have hkeyed := h.plainKeyed hnames hjson
    exact ⟨hkeyed.nodup, hkeyed⟩

/-- A type with two fields that share their local name. -/
def sharedType : MessageType where
  name := "Shared"
  fields := [⟨1, "foo_bar", none, .scalar .int32 false⟩, ⟨2, "fooBar", none, .scalar .int32 false⟩]

/-- Fields that share their local name appear under their declared names, and are found there. -/
theorem plainKeyed_shared :
    (sharedType.fields.map Field.name).Nodup ∧
      (∀ field ∈ sharedType.fields, field.givenJsonName = none) ∧
      sharedType.plainKeys.Nodup ∧ sharedType.PlainKeyed := by
  refine ⟨by decide, by decide, (plainKeyed_iff (by decide) (by decide)).2 ?_⟩
  intro i j f g hf hg hname
  refine .inl ?_
  have hmem := List.mem_of_getElem? hf
  simp only [sharedType, List.mem_cons, List.not_mem_nil, or_false] at hmem
  rcases hmem with rfl | rfl
  · rfl
  · rfl

/-- A type with a field whose local name is the declared name of another field. -/
def hiddenType : MessageType where
  name := "Hidden"
  fields := [⟨1, "Foo", none, .scalar .int32 false⟩, ⟨2, "_foo", none, .scalar .int32 false⟩]

/-- The key of the second field leads to the first one. -/
theorem not_plainKeyed_hidden :
    (hiddenType.fields.map Field.name).Nodup ∧
      (∀ field ∈ hiddenType.fields, field.givenJsonName = none) ∧
      hiddenType.plainKeys[1]? = some "Foo" ∧ hiddenType.indexOf? "Foo" = some 0 ∧
      ¬ hiddenType.PlainKeyed := by
  have hkey : hiddenType.plainKeys[1]? = some "Foo" := rfl
  have hindex : hiddenType.indexOf? "Foo" = some 0 := rfl
  refine ⟨by decide, by decide, hkey, hindex, fun h => ?_⟩
  have hone := h 1 "Foo" hkey
  rw [hindex] at hone
  cases hone

/-- Identifiers that do not start with an underscore are not the local names of other fields, except
for shared ones: being a declared name, a local name is its own local name. -/
theorem unclashed_of_identifiers
    (h : ∀ field ∈ type.fields, isIdentifier field.name.toList = true ∧
      field.name.toList.head? ≠ some '_') : type.Unclashed := by
  intro i j f g hf hg hname
  by_cases hij : i = j
  · exact .inr hij
  · obtain ⟨hidentifier, hfirst⟩ := h f (List.mem_of_getElem? hf)
    have hlocal : g.localName = f.localName := by
      rw [Field.localName, hname]
      exact lowerCamelCase_idem hidentifier hfirst
    by_contra hnot
    rw [not_or] at hnot
    exact hij (eq_of_localName_eq hf hg hnot.1 hlocal)

/-- So the fields of a type with distinct identifiers for names are found under their plain keys, if
no name starts with an underscore. -/
theorem plainKeyed_of_identifiers (hnames : (type.fields.map Field.name).Nodup)
    (hjson : ∀ field ∈ type.fields, field.givenJsonName = none)
    (h : ∀ field ∈ type.fields, isIdentifier field.name.toList = true ∧
      field.name.toList.head? ≠ some '_') : type.PlainKeyed :=
  (unclashed_of_identifiers h).plainKeyed hnames hjson

end DynProto.MessageType
