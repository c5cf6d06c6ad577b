import DynProto.Schema.Field

/-!
# Message types

A message type is a name and a list of fields in declared order. From the list derive the order in
which fields are written, the keys under which they appear in a plain object, and the default
record.
-/

namespace DynProto

/-- A message type. -/
structure MessageType where
  /-- The full name of the type. -/
  name : String
  /-- The fields, in the order in which they are declared. -/
  fields : List Field
deriving DecidableEq, Repr

namespace MessageType

/-- The number of the field at a place; places beyond the last field have none. -/
def numberAt (type : MessageType) (index : Nat) : Nat :=
  (type.fields[index]?).elim 0 Field.number

/-- The places of the fields in the order of their numbers; fields with one number keep their
declared order. -/
def wireOrder (type : MessageType) : List Nat :=
  (List.range type.fields.length).mergeSort fun i j => type.numberAt i ≤ type.numberAt j

/-- Whether several fields share a local name. -/
def isSharedName (type : MessageType) (localName : String) : Bool :=
  1 < (type.fields.map Field.localName).count localName

/-- The key of a field in a plain object: its local name, or the declared name if another field
has the same local name. -/
def plainKey (type : MessageType) (field : Field) : String :=
  if type.isSharedName field.localName then field.name else field.localName

/-- The keys of all fields in a plain object, in declared order. -/
def plainKeys (type : MessageType) : List String :=
  type.fields.map type.plainKey

/-- The place of the field that a key names. A declared name counts before the other names. -/
def indexOf? (type : MessageType) (key : String) : Option Nat :=
  (type.fields.findIdx? fun field => field.name == key).or
    (type.fields.findIdx? fun field => field.answersTo key)

/-- The field that a key names. -/
def field? (type : MessageType) (key : String) : Option Field :=
  (type.indexOf? key).bind fun index => type.fields[index]?

/-- The place of the first field with a number. -/
def indexOfNumber? (type : MessageType) (number : Nat) : Option Nat :=
  type.fields.findIdx? fun field => field.number == number

/-- The first field with a number. -/
def fieldOfNumber? (type : MessageType) (number : Nat) : Option Field :=
  type.fields.find? fun field => field.number == number

/-- The record in which every field has its default. -/
def defaultRecord (type : MessageType) : Record :=
  type.fields.map fun field => field.kind.default

/-! ## The order of writing -/

/-- Every place is written once. -/
theorem wireOrder_perm (type : MessageType) :
    type.wireOrder.Perm (List.range type.fields.length) :=
  List.mergeSort_perm _ _

/-- Fields are written in the order of their numbers. -/
theorem wireOrder_sorted (type : MessageType) :
    type.wireOrder.Pairwise fun i j => type.numberAt i ≤ type.numberAt j := by
  refine (List.pairwise_mergeSort ?_ ?_ _).imp fun h => of_decide_eq_true h
  · intro i j k
    simpa using Nat.le_trans
  · intro i j
    simpa using Nat.le_total _ _

/-- Fields with one number are written in declared order. -/
theorem wireOrder_filter (type : MessageType) (number : Nat) :
    (type.wireOrder.filter fun i => type.numberAt i == number)
      = (List.range type.fields.length).filter fun i => type.numberAt i == number := by
  have hsorted : ((List.range type.fields.length).filter fun i =>
      type.numberAt i == number).Pairwise fun i j =>
        decide (type.numberAt i ≤ type.numberAt j) := by
    apply List.pairwise_of_forall_mem_list
    intro i hi j hj
    have hi := beq_iff_eq.1 (List.mem_filter.1 hi).2
    have hj := beq_iff_eq.1 (List.mem_filter.1 hj).2
    simp [hi, hj]
  have hsublist := List.sublist_mergeSort (fun i j k => by simpa using Nat.le_trans)
    (fun i j => by simpa using Nat.le_total _ _) hsorted List.filter_sublist
  have hfilter := hsublist.filter fun i => type.numberAt i == number
  simp only [List.filter_filter, Bool.and_self] at hfilter
  exact (hfilter.eq_of_length
    (type.wireOrder_perm.filter fun i => type.numberAt i == number).length_eq.symm).symm

/-- Of two fields the one with the lower number is written first, and of two with one number the
one that is declared first. -/
theorem wireOrder_pairwise (type : MessageType) :
    type.wireOrder.Pairwise fun i j =>
      type.numberAt i < type.numberAt j ∨ type.numberAt i = type.numberAt j ∧ i < j := by
  refine List.pairwise_iff_forall_sublist.2 fun {i j} h => ?_
  have hle := List.pairwise_iff_forall_sublist.1 type.wireOrder_sorted h
  rcases Nat.lt_or_eq_of_le hle with hlt | heq
  · exact .inl hlt
  · refine .inr ⟨heq, ?_⟩
    have hfilter := h.filter fun k => type.numberAt k == type.numberAt i
    rw [type.wireOrder_filter, List.filter_cons_of_pos (by simp),
      List.filter_cons_of_pos (by simp [heq])] at hfilter
    exact List.pairwise_iff_forall_sublist.1 List.pairwise_lt_range
      (hfilter.trans List.filter_sublist)

/-! ## Lengths -/

@[simp] theorem length_defaultRecord (type : MessageType) :
    type.defaultRecord.length = type.fields.length := by
  simp [defaultRecord]

@[simp] theorem length_plainKeys (type : MessageType) :
    type.plainKeys.length = type.fields.length := by
  simp [plainKeys]

end MessageType

end DynProto
