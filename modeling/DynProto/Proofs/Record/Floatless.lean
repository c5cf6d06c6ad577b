import DynProto.Proofs.Plain.RoundTrip

/-!
# Types without floating-point numbers

A type is `Floatless` if neither its own fields nor those of the types that it refers to hold
floating-point numbers. The records of such a type have none, however deep they are nested
(`isNaN_eq_false`), and as their maps are in the order of their keys, both their plain objects and
their octets hold them exactly (`exact_of_floatless`).
-/

namespace DynProto

/-- A scalar kind other than the two floating-point kinds. -/
def Scalar.Floatless (kind : Scalar) : Prop :=
  kind ≠ .float ∧ kind ≠ .double

/-- A field that holds no floating-point numbers itself; what is in its messages is left aside. -/
def FieldKind.Floatless : FieldKind → Prop
  | .scalar kind _ => kind.Floatless
  | .map _ (.scalar kind) => kind.Floatless
  | _ => True

/-- No type that a type refers to has fields of floating-point numbers, and neither has the type
itself. -/
def MessageType.Floatless (registry : Registry) (type : MessageType) : Prop :=
  ∀ child, registry.Refers type child → ∀ field ∈ child.fields, field.kind.Floatless

variable {registry : Registry} {type child : MessageType} {record slots : Record} {kind : FieldKind}
  {v : Value} {name : String}

/-- The fields of such a type hold no floating-point numbers. -/
theorem MessageType.Floatless.fieldKind (h : type.Floatless registry) {field : Field}
    (hfield : field ∈ type.fields) : field.kind.Floatless :=
  h type .self field hfield

/-- The values of a map without floating-point numbers are of a kind without. -/
theorem FieldKind.Floatless.value {key : Scalar} {value : MapValue}
    (h : (FieldKind.map key value).Floatless) : value.fieldKind.Floatless := by
  cases value
  case scalar => exact h
  all_goals trivial

/-- A type that such a type refers to is one as well. -/
theorem MessageType.Floatless.refers (h : type.Floatless registry)
    (hchild : registry.Refers type child) : child.Floatless registry := by
  intro grandchild hgrandchild
  apply h
  induction hgrandchild with
  | self => exact hchild
  | field _ hfield hname hfound ih => exact ih.field hfield hname hfound

/-- A value that fits another kind is no floating-point number. -/
theorem isNaN_of_fits {kind : Scalar} (h : v.fits kind = true) (hkind : kind.Floatless) :
    v.isNaN = false := by
  cases v
  case f32 | f64 => simp_all [Value.fits, Scalar.Floatless]
  all_goals rfl

/-! ## Values in records of such types -/

/-- A value is of the sort that some field calls for, a field without floating-point numbers whose
messages are well-formed and of types without any. -/
structure Placed (registry : Registry) (kind : FieldKind) (v : Value) : Prop where
  /-- The field holds no floating-point numbers. -/
  floatless : kind.Floatless
  /-- It calls for such values. -/
  suits : kind.Suits registry v
  /-- The messages that it holds are well-formed and of such types. -/
  inner : ∀ name slots child, kind.Holds v name slots →
    registry.codecMessageType name = .ok child →
    slots.WellFormed registry child ∧ child.Floatless registry

/-- The values of a well-formed record are in their places. -/
theorem placed_of_value? (hrecord : record.WellFormed registry type)
    (htype : type.Floatless registry) {i : Nat} (hv : record.value? i = some v) :
    ∃ kind, Placed registry kind v := by
  have hlt : i < type.fields.length := by
    have hslot := (List.getElem?_eq_some_iff.1 (Option.join_eq_some_iff.1 hv)).1
    rwa [hrecord.holds.length_eq] at hslot
  have hfield : type.fields[i]? = some type.fields[i] := List.getElem?_eq_getElem hlt
  have hmem : type.fields[i] ∈ type.fields := List.getElem_mem hlt
  refine ⟨_, htype.fieldKind hmem, hrecord.holds.suits i _ v hfield hv, ?_⟩
  intro name slots child hholds hchild
  exact ⟨hrecord.inner hfield hv hholds hchild,
    htype.refers (.field .self hmem hholds.messageName?_eq hchild)⟩

/-- The elements of a list are in a place of their own. -/
theorem Placed.element {vs : List Value} (h : Placed registry kind (.list vs)) (hv : v ∈ vs) :
    ∃ kind, Placed registry kind v := by
  obtain ⟨hfloatless, hsuits, hinner⟩ := h
  rcases hsuits with h | _ | _ | @⟨scalar, _, h⟩ | @⟨name, _, h⟩ | @⟨name, _, h⟩ | _
  · cases h
  · refine ⟨.scalar scalar false, hfloatless, .scalar (h v hv), fun _ _ _ hholds => ?_⟩
    cases hholds
  · obtain ⟨n, rfl⟩ := h v hv
    refine ⟨.enum name false, trivial, .enum, fun _ _ _ hholds => ?_⟩
    cases hholds
  · obtain ⟨slots, child, rfl, hchild⟩ := h v hv
    refine ⟨.message name false, trivial, .message hchild, fun _ _ child hholds hchild => ?_⟩
    cases hholds
    exact hinner _ _ child (.element hv) hchild

/-- The values of a map are in a place of their own. -/
theorem Placed.entry {entries : List (MapKey × Value)} (h : Placed registry kind (.map entries))
    {entry : MapKey × Value} (hentry : entry ∈ entries) :
    ∃ kind, Placed registry kind entry.2 := by
  obtain ⟨hfloatless, hsuits, hinner⟩ := h
  rcases hsuits with h | _ | _ | _ | _ | _ | @⟨key, value, _, _, _, hvalues⟩
  · cases h
  · exact ⟨value.fieldKind, hfloatless.value, hvalues entry hentry,
      fun name slots child hholds => hinner name slots child (hholds.of_entry hentry)⟩

/-- Every value in a well-formed record is in its place, however deep. -/
theorem placed_of_contains (hrecord : record.WellFormed registry type)
    (htype : type.Floatless registry) (hv : record.Contains v) :
    ∃ kind, Placed registry kind v := by
  induction hv with
  | slot hv => exact placed_of_value? hrecord htype hv
  | @inner slots _ _ _ hv ih =>
    obtain ⟨kind, _, hsuits, hinner⟩ := ih
    rcases hsuits with h | _ | @⟨name, _, child, hchild⟩
    · cases h
    · obtain ⟨hslots, hfloatless⟩ := hinner _ _ child .single hchild
      exact placed_of_value? hslots hfloatless hv
  | element _ hmem ih =>
    obtain ⟨kind, hplaced⟩ := ih
    exact hplaced.element hmem
  | entry _ hmem ih =>
    obtain ⟨kind, hplaced⟩ := ih
    exact hplaced.entry hmem

/-- No value in its place is a not-a-number. -/
theorem Placed.isNaN_eq_false (h : Placed registry kind v) : v.isNaN = false := by
  obtain ⟨hfloatless, hsuits, _⟩ := h
  rcases hsuits with h | _ | _ | _ | _ | _ | _
  · exact isNaN_of_fits h hfloatless
  all_goals rfl

/-- Plain objects and octets hold the records of such a type exactly. -/
theorem exact_of_floatless (hrecord : record.WellFormed registry type)
    (htype : type.Floatless registry) : Plain.Exact record where
  isNaN_eq v hv := by
    obtain ⟨kind, hplaced⟩ := placed_of_contains hrecord htype hv
    exact hplaced.isNaN_eq_false
  ordered entries hentries := by
    obtain ⟨kind, _, hsuits, _⟩ := placed_of_contains hrecord htype hentries
    rcases hsuits with h | _ | _ | _ | _ | _ | ⟨hordered, _, _⟩
    · cases h
    · exact hordered

/-- Trees have none. -/
theorem floatless_tree (options : Options) : treeType.Floatless (treeRegistry options) := by
  intro child hchild field hfield
  have hchild : child = treeType := by
    rcases hchild with _ | ⟨_, _, _, hfound⟩
    · rfl
    · exact Registry.eq_treeType_of_messageType (Registry.messageType_of_codecMessageType hfound)
  rw [hchild] at hfield
  simp only [treeType, List.mem_cons, List.not_mem_nil, or_false] at hfield
  rcases hfield with rfl | rfl | rfl
  · exact ⟨by decide, by decide⟩
  · trivial
  · trivial

end DynProto
