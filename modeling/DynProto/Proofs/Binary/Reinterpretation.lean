import DynProto.Proofs.Binary.Element
import DynProto.Proofs.Message
import DynProto.Proofs.Registry.MapKeys

/-!
# Records written under another schema

A record has neither names nor numbers: what it is written as is up to the type. A binding takes a
message for one of its own if the two types have one name, and writes the record as its own type.
Where the message is of another schema that declares the name differently, the octets may be others
than those of the message itself.

`Binding.WritesAs` says when they are not. Place by place the fields of the two types have the same
numbers and kinds that write alike, and so have the types that they refer to. Types may refer to
themselves, so this is no recursion over types; it asks for a relation that holds of the two types
and hands itself down to the types they refer to (`WritingSimulation`). By induction on how deeply
messages are nested in the record, the second schema then writes all that the first one writes
(`carried_of_simulation`). This is also necessary: that one type writes all that another one writes
is such a relation itself (`writingSimulation_of_includes`), since records with a value in one slot
only show the number and the kind of its field.

So the name tells types apart within one registry, and no record is written under another schema
there; across registries it does not (`Binding.encode_message`).
-/

namespace DynProto

/-! ## Schemas that write alike -/

/-- Values of the first kind are written as values of the second kind, where types that are referred
to are related. -/
inductive MapValue.WritesAs (registry other : Registry) (R : MessageType → MessageType → Prop) :
    MapValue → MapValue → Prop
  /-- The same scalar kind. -/
  | scalar {kind : Scalar} : WritesAs registry other R (.scalar kind) (.scalar kind)
  /-- Enums; their types have no say in the octets. -/
  | enum {name name' : String} : WritesAs registry other R (.enum name) (.enum name')
  /-- A plain 32-bit integer serves as the number of an enum value. -/
  | number {name' : String} : WritesAs registry other R (.scalar .int32) (.enum name')
  /-- Messages of related types. -/
  | message {name name' : String} (h : ∀ child, registry.codecMessageType name = .ok child →
      ∃ child', other.codecMessageType name' = .ok child' ∧ R child child') :
    WritesAs registry other R (.message name) (.message name')

/-- Fields of the first kind are written as fields of the second kind. -/
inductive FieldKind.WritesAs (registry other : Registry) (R : MessageType → MessageType → Prop) :
    FieldKind → FieldKind → Prop
  /-- Single values. -/
  | single {value value' : MapValue} (h : value.WritesAs registry other R value') :
    WritesAs registry other R value.fieldKind value'.fieldKind
  /-- Lists of values. -/
  | repeated {value value' : MapValue} (h : value.WritesAs registry other R value') :
    WritesAs registry other R value.repeatedKind value'.repeatedKind
  /-- Maps with keys of one kind. -/
  | map {key : Scalar} {value value' : MapValue} (h : value.WritesAs registry other R value') :
    WritesAs registry other R (.map key value) (.map key value')

/-- A relation under which the fields of the first type are at their places in the second type, with
their numbers and with kinds that write alike under the relation. -/
def WritingSimulation (registry other : Registry) (R : MessageType → MessageType → Prop) : Prop :=
  ∀ type type', R type type' → ∀ (i : Nat) (field : Field), type.fields[i]? = some field →
    ∃ field' : Field, type'.fields[i]? = some field' ∧ field'.number = field.number ∧
      field.kind.WritesAs registry other R field'.kind

/-- The first schema writes as the second one: some relation that hands itself down holds of their
types. -/
def Binding.WritesAs (binding other : Binding) : Prop :=
  ∃ R, WritingSimulation binding.registry other.registry R ∧ R binding.type other.type

/-! ## Places in the order of writing, and records with one value -/

namespace MessageType

variable {type type' : MessageType}

/-- The places of a type come in one order with the further places of a longer type, if their fields
have the same numbers. -/
theorem wireOrder_filter_lt (hle : type.fields.length ≤ type'.fields.length)
    (hnumber : ∀ i < type.fields.length, type'.numberAt i = type.numberAt i) :
    type'.wireOrder.filter (· < type.fields.length) = type.wireOrder := by
  have hperm : (type'.wireOrder.filter (· < type.fields.length)).Perm type.wireOrder := by
    refine (type'.wireOrder_perm.filter _).trans (List.Perm.trans ?_ type.wireOrder_perm.symm)
    obtain ⟨more, hmore⟩ := Nat.exists_eq_add_of_le hle
    rw [hmore, List.range_add, List.filter_append, List.filter_eq_self.2 (by simp),
      List.filter_eq_nil_iff.2 (by simp), List.append_nil]
  have hsorted : type.wireOrder.Pairwise fun i j =>
      type'.numberAt i < type'.numberAt j ∨ type'.numberAt i = type'.numberAt j ∧ i < j := by
    refine type.wireOrder_pairwise.imp_of_mem fun {i j} hi hj hij => ?_
    have hi := hnumber i (List.mem_range.1 (type.wireOrder_perm.mem_iff.1 hi))
    have hj := hnumber j (List.mem_range.1 (type.wireOrder_perm.mem_iff.1 hj))
    rwa [hi, hj]
  refine hperm.eq_of_pairwise (fun i j _ _ hij hji => ?_)
    (type'.wireOrder_pairwise.sublist List.filter_sublist) hsorted
  omega

/-- No place is written twice. -/
theorem nodup_wireOrder (type : MessageType) : type.wireOrder.Nodup :=
  type.wireOrder_perm.nodup_iff.2 List.nodup_range

end MessageType

namespace Record

/-- The record with a value in one slot and none in the slots before it. -/
def single (i : Nat) (v : Value) : Record :=
  List.replicate i none ++ [some v]

/-- Only the one slot has a value. -/
theorem value?_single (i : Nat) (v : Value) (j : Nat) :
    (single i v).value? j = if j = i then some v else none := by
  unfold single value?
  rcases Nat.lt_trichotomy j i with hlt | rfl | hgt
  · rw [List.getElem?_append_left (by simpa using hlt), List.getElem?_replicate_of_lt hlt,
      if_neg (Nat.ne_of_lt hlt)]
    rfl
  · rw [List.getElem?_append_right (by simp), List.length_replicate, Nat.sub_self, if_pos rfl]
    rfl
  · rw [List.getElem?_eq_none (by simp; omega), if_neg (Nat.ne_of_gt hgt)]
    rfl

end Record

namespace Binary

open Wire

variable {registry other : Registry} {R : MessageType → MessageType → Prop}
  {type type' : MessageType} {record : Record} {value value' : MapValue} {kind kind' : FieldKind}
  {number number' : Nat} {v : Value} {content bytes : Bytes}

/-- Places whose pieces are empty may be left out. -/
theorem flatMap_filter_of_nil {order : List Nat} {pieces : Nat → Bytes} {p : Nat → Bool}
    (h : ∀ i, p i = false → pieces i = []) :
    (order.filter p).flatMap pieces = order.flatMap pieces := by
  induction order with
  | nil => rfl
  | cons i order ih =>
    rcases hp : p i
    · rw [List.filter_cons_of_neg (by simp [hp]), List.flatMap_cons, h i hp, ih]
      rfl
    · rw [List.filter_cons_of_pos hp, List.flatMap_cons, List.flatMap_cons, ih]

/-- Where only one place has a piece, nothing else is written. -/
theorem flatMap_eq_of_mem {order : List Nat} (hnodup : order.Nodup) {i : Nat} (hi : i ∈ order)
    {pieces : Nat → Bytes} (h : ∀ j ∈ order, j ≠ i → pieces j = []) :
    order.flatMap pieces = pieces i := by
  obtain ⟨front, back, rfl⟩ := List.append_of_mem hi
  have hmiddle := List.nodup_middle.1 hnodup
  rw [List.nodup_cons, List.mem_append, not_or] at hmiddle
  have hfront : front.flatMap pieces = [] := List.flatMap_eq_nil_iff.2 fun j hj =>
    h j (List.mem_append_left _ hj) fun heq => hmiddle.1.1 (heq ▸ hj)
  have hback : back.flatMap pieces = [] := List.flatMap_eq_nil_iff.2 fun j hj =>
    h j (List.mem_append_right _ (List.mem_cons_of_mem i hj)) fun heq => hmiddle.1.2 (heq ▸ hj)
  rw [List.flatMap_append, List.flatMap_cons, hfront, hback, List.nil_append, List.append_nil]

/-- A record with a value in one slot is written as the value is. -/
theorem encode_single_iff {field : Field} {i : Nat} (hfield : type.fields[i]? = some field) :
    encode registry type (.single i v) = .ok bytes ↔
      Piece registry field.number field.kind v bytes := by
  have hmem : i ∈ type.wireOrder := mem_wireOrder.2 ⟨field, hfield⟩
  constructor
  · intro h
    obtain ⟨pieces, hpieces, rfl⟩ := encode_eq_ok_iff.1 h
    rw [flatMap_eq_of_mem type.nodup_wireOrder hmem fun j hj hne => ?_]
    · exact hpieces.piece i field v hfield (by rw [Record.value?_single, if_pos rfl])
    · obtain ⟨field', hfield'⟩ := mem_wireOrder.1 hj
      exact hpieces.nil j field' hfield' (by rw [Record.value?_single, if_neg hne])
  · intro h
    let pieces j := if j = i then bytes else []
    refine encode_eq_ok_iff.2 ⟨pieces, ⟨?_, fun j field' w hfield' hw => ?_,
      fun j field' _ hw => ?_⟩, ?_⟩
    · have hlt := (List.getElem?_eq_some_iff.1 hfield).1
      simpa [Record.single] using hlt
    · rw [Record.value?_single] at hw
      split_ifs at hw with hj
      cases hw
      subst hj
      rw [hfield] at hfield'
      cases hfield'
      rwa [show pieces j = bytes from if_pos rfl]
    · rw [Record.value?_single] at hw
      split_ifs at hw with hj
      exact if_neg hj
    · rw [flatMap_eq_of_mem type.nodup_wireOrder hmem fun j _ hne => if_neg hne]
      exact if_pos rfl

/-- A record without values is written as nothing. -/
theorem encode_replicate_none {n : Nat} (hle : n ≤ type.fields.length) :
    encode registry type (List.replicate n none) = .ok [] := by
  refine encode_eq_ok_iff.2 ⟨fun _ => [], ⟨by simpa using hle, fun i field v _ hv => ?_,
    fun _ _ _ _ => rfl⟩, by simp⟩
  have hnone : Record.value? (List.replicate n none) i = none := by
    unfold Record.value?
    rw [List.getElem?_replicate]
    split_ifs <;> rfl
  rw [hnone] at hv
  cases hv

/-! ## What the first schema writes, the second writes -/

/-- What the first of two related types writes for a record, the second one writes. -/
def Carried (registry other : Registry) (R : MessageType → MessageType → Prop) (record : Record) :
    Prop :=
  ∀ type type', R type type' → ∀ bytes, encode registry type record = .ok bytes →
    encode other type' record = .ok bytes

/-- An element is one of any kind that its kind is written as. -/
theorem Element.carried (h : Element registry value v content)
    (hvalue : value.WritesAs registry other R value')
    (hinner : ∀ slots : Record, slots.depth < v.depth → Carried registry other R slots) :
    Element other value' v content := by
  rcases hvalue with _ | _ | _ | hrelated
  case scalar => exact .scalar (element_scalar_iff.1 h)
  case enum => exact element_enum_iff.2 (element_enum_iff.1 h)
  case number =>
    have hcontent := element_scalar_iff.1 h
    cases v <;> cases hcontent
    exact .enum rfl
  case message =>
    rcases h with _ | _ | ⟨hchild, hbody⟩
    obtain ⟨child', hchild', hR⟩ := hrelated _ hchild
    exact .message hchild' (hinner _ (Nat.lt_succ_self _) _ _ hR _ hbody)

/-- Kinds that are written alike have one wire type and are packed or not alike. -/
theorem wireType_eq_of_writesAs (h : value.WritesAs registry other R value') :
    value'.wireType = value.wireType ∧ value'.isPackable = value.isPackable := by
  cases h <;> exact ⟨rfl, rfl⟩

/-- A value is written in the same way as one of any kind that its kind is written as. -/
theorem Piece.carried (h : Piece registry number kind v bytes)
    (hkind : kind.WritesAs registry other R kind')
    (hinner : ∀ slots : Record, slots.depth < v.depth → Carried registry other R slots) :
    Piece other number kind' v bytes := by
  rcases hkind with hvalue | hvalue | hvalue
  case single =>
    obtain ⟨content, helement, rfl⟩ := piece_single_iff.1 h
    rw [← (wireType_eq_of_writesAs hvalue).1]
    exact piece_single_iff.2 ⟨content, helement.carried hvalue hinner, rfl⟩
  case repeated =>
    obtain ⟨vs, contents, rfl, helements, rfl⟩ := piece_repeated_iff.1 h
    have hmem : List.Forall₂ (fun v content => v ∈ vs ∧ _) vs contents :=
      (List.forall₂_and_left vs contents).2 ⟨fun _ hv => hv, helements⟩
    obtain ⟨hwire, hpackable⟩ := wireType_eq_of_writesAs hvalue
    rw [← hwire, ← hpackable]
    refine piece_repeated_iff.2 ⟨vs, contents, rfl, hmem.imp ?_, rfl⟩
    rintro w content ⟨hw, helement⟩
    exact helement.carried hvalue fun slots hlt => hinner slots
      (hlt.trans_le (Value.elementsDepth_le_iff.1 (Nat.le_refl _) w hw))
  case map =>
    obtain ⟨entries, bodies, rfl, hbodies, rfl⟩ := piece_map_iff.1 h
    have hmem : List.Forall₂ (fun entry body => entry ∈ entries ∧ _) entries bodies :=
      (List.forall₂_and_left entries bodies).2 ⟨fun _ hentry => hentry, hbodies⟩
    refine .map (hmem.imp ?_)
    rintro entry body ⟨hentry, hkey, hpiece⟩
    obtain ⟨content, helement, rfl⟩ := valuePiece_iff.1 hpiece
    rw [← (wireType_eq_of_writesAs hvalue).1]
    refine ⟨hkey, valuePiece_iff.2 ⟨content, helement.carried hvalue fun slots hlt => ?_, rfl⟩⟩
    exact hinner slots (hlt.trans_le (Value.entriesDepth_le_iff.1 (Nat.le_refl _) _ hentry))

/-- The second of two related types has at least as many fields. -/
theorem length_le_of_simulation (h : WritingSimulation registry other R) (hR : R type type') :
    type.fields.length ≤ type'.fields.length := by
  by_contra hlt
  obtain ⟨field', hfield', _⟩ :=
    h type type' hR _ _ (List.getElem?_eq_getElem (Nat.not_le.1 hlt))
  rw [List.getElem?_eq_none (Nat.le_refl _)] at hfield'
  cases hfield'

/-- The fields of related types have the same numbers. -/
theorem numberAt_of_simulation (h : WritingSimulation registry other R) (hR : R type type')
    (i : Nat) (hi : i < type.fields.length) : type'.numberAt i = type.numberAt i := by
  have hfield := List.getElem?_eq_getElem hi
  obtain ⟨field', hfield', hnumber, _⟩ := h type type' hR i _ hfield
  rw [MessageType.numberAt, MessageType.numberAt, hfield, hfield']
  exact hnumber

/-- A relation that hands itself down carries every record. -/
theorem carried_of_simulation (h : WritingSimulation registry other R) (record : Record) :
    Carried registry other R record := by
  induction record using Record.depth_induction with
  | h record ih =>
    intro type type' hR bytes hbytes
    obtain ⟨pieces, hpieces, rfl⟩ := encode_eq_ok_iff.1 hbytes
    have hle := length_le_of_simulation h hR
    have hnumber := numberAt_of_simulation h hR
    -- the further fields of the second type have no values in the record
    let pieces' i := if decide (i < type.fields.length) then pieces i else []
    have hpieces' : Pieces other type' record pieces' := by
      refine ⟨hpieces.length_le.trans hle, fun i field' v hfield' hv => ?_,
        fun i field' hfield' hv => ?_⟩
      · have hslot := (List.getElem?_eq_some_iff.1 (Option.join_eq_some_iff.1 hv)).1
        have hi : i < type.fields.length := hslot.trans_le hpieces.length_le
        have hfield := List.getElem?_eq_getElem hi
        obtain ⟨_, hfound, hnumber, hkind⟩ := h type type' hR i _ hfield
        rw [hfield'] at hfound
        cases hfound
        rw [hnumber, show pieces' i = pieces i from if_pos (decide_eq_true hi)]
        exact (hpieces.piece i _ v hfield hv).carried hkind fun slots hlt =>
          ih slots (hlt.trans_le (Record.depth_le_iff.1 (Nat.le_refl _) i v hv))
      · rcases Nat.lt_or_ge i type.fields.length with hi | hi
        · rw [show pieces' i = pieces i from if_pos (decide_eq_true hi)]
          exact hpieces.nil i _ (List.getElem?_eq_getElem hi) hv
        · exact if_neg (by simpa using hi)
    refine encode_eq_ok_iff.2 ⟨pieces', hpieces', ?_⟩
    calc type'.wireOrder.flatMap pieces'
      _ = (type'.wireOrder.filter (· < type.fields.length)).flatMap pieces' :=
          (flatMap_filter_of_nil fun i hi => if_neg (by simpa using hi)).symm
      _ = type.wireOrder.flatMap pieces' := by
          rw [MessageType.wireOrder_filter_lt hle hnumber]
      _ = type.wireOrder.flatMap pieces := List.flatMap_congr fun i hi =>
          if_pos (decide_eq_true (List.mem_range.1 (type.wireOrder_perm.mem_iff.1 hi)))

/-! ## What the second schema writes alike is alike -/

/-- What one type writes, the other one writes. -/
def Includes (registry other : Registry) (type type' : MessageType) : Prop :=
  ∀ record bytes, encode registry type record = .ok bytes → encode other type' record = .ok bytes

/-- The relation holds of a type that is found and one that writes all that it writes. -/
def RelatesIncluded (registry other : Registry) (R : MessageType → MessageType → Prop) : Prop :=
  ∀ name child child', registry.codecMessageType name = .ok child →
    Includes registry other child child' → R child child'

/-- A kind of values whose types are found has an element that is no default. -/
theorem exists_element (hlinked : value.Linked registry) :
    ∃ v content, v.isDefault = false ∧ Element registry value v content := by
  rcases value with kind | name | name
  · obtain ⟨content, hcontent⟩ := exists_content kind.fits_sample
    exact ⟨_, content, kind.isDefault_sample, .scalar hcontent⟩
  · exact ⟨.enum 1, _, rfl, .enum rfl⟩
  · obtain ⟨child, hchild⟩ := hlinked
    exact ⟨.message [], _, rfl, .message hchild (encode_replicate_none (Nat.zero_le _))⟩

/-- Kinds of values are written alike if the elements of the first, defaults apart, are elements of
the second. -/
theorem writesAs_of_elements
    (h : ∀ v content, v.isDefault = false → Element registry value v content →
      Element other value' v content)
    (hlinked : value.Linked registry) (hR : RelatesIncluded registry other R) :
    value.WritesAs registry other R value' := by
  rcases value with kind | name | name
  case scalar =>
    obtain ⟨content, hcontent⟩ := exists_content kind.fits_sample
    have helement := h _ _ kind.isDefault_sample (.scalar hcontent)
    rcases value' with kind' | name' | name'
    · obtain rfl := Scalar.eq_of_sample hcontent (element_scalar_iff.1 helement)
      exact .scalar
    · obtain ⟨n, hn, rfl⟩ := element_enum_iff.1 helement
      obtain rfl := Scalar.eq_of_sample hcontent (content?_of_asEnum kind.fits_sample hn)
      exact .number
    · obtain ⟨child', hchild'⟩ := helement.exists_child
      obtain ⟨_, ⟨_, hslots, _⟩, _⟩ := (element_message_iff hchild').1 helement
      have hfits := kind.fits_sample
      rw [hslots] at hfits
      cases hfits
  case enum =>
    have helement := h (.enum 1) _ rfl (.enum rfl)
    rcases value' with kind' | name' | name'
    · cases fits_of_content (element_scalar_iff.1 helement)
    · exact .enum
    · obtain ⟨child', hchild'⟩ := helement.exists_child
      obtain ⟨_, ⟨_, hslots, _⟩, _⟩ := (element_message_iff hchild').1 helement
      cases hslots
  case message =>
    obtain ⟨child, hchild⟩ := hlinked
    have helement : ∀ slots body, encode registry child slots = .ok body →
        Element other value' (.message slots) (delimited body) :=
      fun slots body hbody => h _ _ rfl (.message hchild hbody)
    have hempty := helement [] [] (encode_replicate_none (Nat.zero_le _))
    rcases value' with kind' | name' | name'
    · cases fits_of_content (element_scalar_iff.1 hempty)
    · obtain ⟨_, hn, _⟩ := element_enum_iff.1 hempty
      cases hn
    · obtain ⟨child', hchild'⟩ := hempty.exists_child
      refine .message fun found hfound => ⟨child', hchild', hR name found child' hfound ?_⟩
      intro slots body hbody
      rw [hchild] at hfound
      cases hfound
      obtain ⟨body', ⟨_, ⟨⟩, hbody'⟩, hblock⟩ :=
        (element_message_iff hchild').1 (helement slots body hbody)
      rwa [delimited_inj hblock] at hbody'

/-- A field with a single value. -/
theorem writesAs_of_single (h : ∀ v bytes, Piece registry number value.fieldKind v bytes →
      Piece other number' kind' v bytes) (hlinked : value.Linked registry)
    (hR : RelatesIncluded registry other R) :
    number' = number ∧ value.fieldKind.WritesAs registry other R kind' := by
  have hpiece : ∀ v content, v.isDefault = false → Element registry value v content →
      Piece other number' kind' v (fieldBytes number value.wireType content) :=
    fun v content hdefault helement => h _ _ (piece_single_iff.2 ⟨content, helement, by
      rw [hdefault]
      rfl⟩)
  obtain ⟨v, content, hdefault, helement⟩ := exists_element hlinked
  obtain ⟨value', rfl | rfl | ⟨key, rfl⟩⟩ := kind'.exists_mapValue
  · have hback : ∀ v content, v.isDefault = false → Element registry value v content →
        number' = number ∧ Element other value' v content := by
      intro v content hdefault helement
      obtain ⟨content', helement', hbytes⟩ :=
        piece_single_iff.1 (hpiece v content hdefault helement)
      rw [hdefault] at hbytes
      obtain ⟨rfl, rfl⟩ := fieldBytes_inj hbytes
      exact ⟨rfl, helement'⟩
    refine ⟨(hback v content hdefault helement).1, .single ?_⟩
    exact writesAs_of_elements (fun v content hdefault helement =>
      (hback v content hdefault helement).2) hlinked hR
  · obtain ⟨_, _, rfl, _⟩ := piece_repeated_iff.1 (hpiece v content hdefault helement)
    exact absurd helement not_element_list
  · obtain ⟨_, _, rfl, _⟩ := piece_map_iff.1 (hpiece v content hdefault helement)
    exact absurd helement not_element_map

/-- A field with a list of values. -/
theorem writesAs_of_repeated (h : ∀ v bytes, Piece registry number value.repeatedKind v bytes →
      Piece other number' kind' v bytes) (hlinked : value.Linked registry)
    (hR : RelatesIncluded registry other R) :
    number' = number ∧ value.repeatedKind.WritesAs registry other R kind' := by
  have hpiece : ∀ v content, Element registry value v content →
      Piece other number' kind' (.list [v]) (if value.isPackable then blockBytes number content
        else fieldBytes number value.wireType content) :=
    fun v content helement => h _ _
      (piece_repeated_iff.2 ⟨[v], [content], rfl, .cons helement .nil, by simp⟩)
  obtain ⟨v, content, _, helement⟩ := exists_element hlinked
  obtain ⟨value', rfl | rfl | ⟨key, rfl⟩⟩ := kind'.exists_mapValue
  · obtain ⟨_, hlist, _⟩ := piece_single_iff.1 (hpiece v content helement)
    exact absurd hlist not_element_list
  · have hback : ∀ v content, Element registry value v content →
        number' = number ∧ Element other value' v content := by
      intro v content helement
      obtain ⟨_, _, ⟨⟩, _ | ⟨helement', _ | _⟩, hbytes⟩ :=
        piece_repeated_iff.1 (hpiece v content helement)
      rw [helement'.isPackable_eq, helement.isPackable_eq] at hbytes
      rcases hpackable : v.isPackable
      · rw [hpackable] at hbytes
        obtain ⟨rfl, rfl⟩ := fieldBytes_inj (by simpa using hbytes)
        exact ⟨rfl, helement'⟩
      · rw [hpackable] at hbytes
        obtain ⟨rfl, rfl⟩ := blockBytes_inj (by simpa using hbytes)
        exact ⟨rfl, helement'⟩
    refine ⟨(hback v content helement).1, .repeated ?_⟩
    exact writesAs_of_elements (fun v content _ helement => (hback v content helement).2)
      hlinked hR
  · obtain ⟨_, _, ⟨⟩, _⟩ := piece_map_iff.1 (hpiece v content helement)

/-- A map with keys of a kind that keys may be of. -/
theorem writesAs_of_map {key : Scalar}
    (h : ∀ v bytes, Piece registry number (.map key value) v bytes →
      Piece other number' kind' v bytes) (hkey : key.isMapKey = true)
    (hlinked : value.Linked registry) (hR : RelatesIncluded registry other R) :
    number' = number ∧ FieldKind.WritesAs registry other R (.map key value) kind' := by
  obtain ⟨k, hk⟩ := Scalar.exists_key_sample hkey
  obtain ⟨keyContent, hcontent⟩ := exists_content key.fits_sample
  have hpiece : ∀ v content, Element registry value v content →
      Piece other number' kind' (.map [(k, v)]) (blockBytes number
        (fieldBytes 1 key.wireType keyContent ++ fieldBytes 2 value.wireType content)) := by
    intro v content helement
    have hentry : EntryPiece registry key value (k, v) (fieldBytes 1 key.wireType keyContent
        ++ fieldBytes 2 value.wireType content) :=
      ⟨by rw [hk, hcontent], valuePiece_iff.2 ⟨content, helement, rfl⟩⟩
    exact h _ _ (piece_map_iff.2 ⟨[(k, v)], [_], rfl, .cons hentry .nil, by simp⟩)
  obtain ⟨v, content, _, helement⟩ := exists_element hlinked
  obtain ⟨value', rfl | rfl | ⟨key', rfl⟩⟩ := kind'.exists_mapValue
  · obtain ⟨_, hmap, _⟩ := piece_single_iff.1 (hpiece v content helement)
    exact absurd hmap not_element_map
  · obtain ⟨_, _, ⟨⟩, _⟩ := piece_repeated_iff.1 (hpiece v content helement)
  · have hback : ∀ v content, Element registry value v content →
        number' = number ∧ key' = key ∧ Element other value' v content := by
      intro v content helement
      obtain ⟨_, _, ⟨⟩, _ | ⟨⟨hkey', hvalue⟩, _ | _⟩, hbytes⟩ :=
        piece_map_iff.1 (hpiece v content helement)
      obtain ⟨content', helement', rfl⟩ := valuePiece_iff.1 hvalue
      obtain ⟨hnumber, hbody⟩ := blockBytes_inj (by simpa using hbytes)
      obtain ⟨_, _, hbody⟩ := fieldBytes_append_inj hbody
      rw [hk] at hkey'
      obtain rfl := Scalar.eq_of_sample_append hcontent hkey' hbody
      rw [hcontent] at hkey'
      cases hkey'
      obtain ⟨_, rfl⟩ := fieldBytes_inj (List.append_cancel_left hbody)
      exact ⟨hnumber.symm, rfl, helement'⟩
    obtain ⟨hnumber, rfl, _⟩ := hback v content helement
    refine ⟨hnumber, .map ?_⟩
    exact writesAs_of_elements (fun v content _ helement => (hback v content helement).2.2)
      hlinked hR

/-- Fields have one number and are written alike if what the first writes, the second writes; all
types must be found, and keys of a kind that keys may be of. -/
theorem writesAs_of_pieces
    (h : ∀ v bytes, Piece registry number kind v bytes → Piece other number' kind' v bytes)
    (hlinked : kind.Linked registry)
    (hkeyed : ∀ key value, kind = .map key value → key.isMapKey = true)
    (hR : RelatesIncluded registry other R) :
    number' = number ∧ kind.WritesAs registry other R kind' := by
  obtain ⟨value, rfl | rfl | ⟨key, rfl⟩⟩ := kind.exists_mapValue
  · exact writesAs_of_single h (by cases value <;> exact hlinked) hR
  · exact writesAs_of_repeated h (by cases value <;> exact hlinked) hR
  · exact writesAs_of_map h (hkeyed key value rfl) hlinked hR

/-- That one type writes all that another one writes is handed down from types that are found to the
types that they refer to. -/
theorem writingSimulation_of_includes (hlinked : registry.Linked) (hkeyed : registry.MapKeyed) :
    WritingSimulation registry other fun type type' =>
      (∃ name, registry.messageType name = .ok type) ∧ Includes registry other type type' := by
  rintro type type' ⟨⟨name, htype⟩, h⟩ i field hfield
  have hlength : type.fields.length ≤ type'.fields.length := by
    have hnone := h _ _ (encode_replicate_none (Nat.le_refl type.fields.length))
    by_contra hlt
    rw [encode_of_lt (by simpa using hlt)] at hnone
    cases hnone
  have hi := (List.getElem?_eq_some_iff.1 hfield).1.trans_le hlength
  have hfield' := List.getElem?_eq_getElem hi
  have hmem := List.mem_of_getElem? hfield
  refine ⟨_, hfield', writesAs_of_pieces (fun v bytes hpiece => ?_)
    (hlinked name type htype field hmem) (hkeyed.of_messageType htype field hmem)
    fun _ child child' hchild hincludes =>
      ⟨⟨_, Registry.messageType_of_codecMessageType hchild⟩, hincludes⟩⟩
  exact (encode_single_iff hfield').1 (h _ _ ((encode_single_iff hfield).2 hpiece))

end Binary

/-! ## Messages of another schema -/

namespace Binding

variable {binding other : Binding}

/-- A schema that another one writes as writes nothing that the other one does not write. -/
theorem WritesAs.encode (h : binding.WritesAs other) {record : Record} {bytes : Bytes}
    (hbytes : Binary.encode binding.registry binding.type record = .ok bytes) :
    Binary.encode other.registry other.type record = .ok bytes := by
  obtain ⟨R, hsimulation, hR⟩ := h
  exact Binary.carried_of_simulation hsimulation record _ _ hR _ hbytes

/-- A schema that comes about by taking files, with types for all references, writes as another one
exactly if the other one writes all that it writes. -/
theorem writesAs_iff (hregistry : binding.registry.Reachable)
    (hlinked : binding.registry.Linked) {name : String}
    (htype : binding.registry.messageType name = .ok binding.type) :
    binding.WritesAs other ↔
      Binary.Includes binding.registry other.registry binding.type other.type := by
  constructor
  · intro h record bytes hbytes
    exact h.encode hbytes
  · intro h
    exact ⟨_, Binary.writingSimulation_of_includes hlinked
      (Registry.mapKeyed_of_reachable hregistry), ⟨name, htype⟩, h⟩

/-- A message of a type with another name is refused. -/
theorem encode_message_of_ne (h : other.type.name ≠ binding.type.name) (record : Record) :
    binding.encode (.message (other.message record))
      = .error (.encode binding.type.name (.foreign other.type.name)) := by
  have hrecord : binding.recordOf (.message (other.message record))
      = .error (.encode binding.type.name (.foreign other.type.name)) := if_neg h
  rw [Binding.encode, hrecord]
  rfl

/-- A message of a type with the same name is written as a message of the binding's own. -/
theorem encode_message_of_eq (h : other.type.name = binding.type.name) (record : Record) :
    binding.encode (.message (other.message record)) = (binding.message record).encode := by
  have hrecord : binding.recordOf (.message (other.message record))
      = binding.type.normalize record := if_pos h
  rw [Binding.encode, hrecord]
  exact Binary.normalize_bind_encode binding.registry binding.type record

/-- What the binding writes for messages of another schema is what they write themselves. -/
def Respects (binding other : Binding) : Prop :=
  ∀ record bytes, binding.encode (.message (other.message record)) = .ok bytes →
    (other.message record).encode = .ok bytes

/-- A binding refuses the messages of all types with another name, and writes those of a type with
its own name as its own type. Of one registry, where the name tells the type, these are the octets
that the messages write themselves. The messages of another registry are respected if its schema is
one that the binding's own writes as, and otherwise there is one that the binding writes differently
from the message itself, or writes where the message itself cannot be written. -/
theorem encode_message (binding other : Binding) :
    (other.type.name ≠ binding.type.name → ∀ record,
      binding.encode (.message (other.message record))
        = .error (.encode binding.type.name (.foreign other.type.name))) ∧
    (other.type.name = binding.type.name → ∀ record,
      binding.encode (.message (other.message record)) = (binding.message record).encode) ∧
    (other.registry = binding.registry →
      binding.registry.messageType binding.type.name = .ok binding.type →
      other.registry.messageType other.type.name = .ok other.type →
      other.type.name = binding.type.name → ∀ record,
        binding.encode (.message (other.message record)) = (other.message record).encode) ∧
    ((other.type.name = binding.type.name → binding.WritesAs other) → binding.Respects other) ∧
    (binding.registry.Reachable → binding.registry.Linked →
      binding.registry.messageType binding.type.name = .ok binding.type →
      binding.Respects other → other.type.name = binding.type.name → binding.WritesAs other) := by
  refine ⟨encode_message_of_ne, encode_message_of_eq, fun hregistry htype htype' hname record => ?_,
    fun h record bytes hbytes => ?_, fun hregistry hlinked htype h hname => ?_⟩
  · rw [hregistry, hname, htype] at htype'
    rw [encode_message_of_eq hname, Message.encode, Message.encode]
    show Binary.encode binding.registry binding.type record
      = Binary.encode other.registry other.type record
    rw [hregistry, Except.ok.inj htype']
  · by_cases hname : other.type.name = binding.type.name
    · rw [encode_message_of_eq hname] at hbytes
      exact (h hname).encode hbytes
    · rw [encode_message_of_ne hname] at hbytes
      cases hbytes
  · rw [writesAs_iff hregistry hlinked htype]
    intro record bytes hbytes
    exact h record bytes ((encode_message_of_eq hname record).trans hbytes)

end Binding

/-! ## Schemas of gauges -/

/-- A file with a type of gauges, whose fields are declared one way or another. -/
def gaugeFile (fields : List FieldDescriptor) : FileDescriptor where
  messages := [.mk "Gauge" fields [] [] false]

/-- A type of gauges, with its registry. -/
def gaugeBinding (fields : List Field) : Binding where
  registry := { pending := [("Gauge", ⟨"Gauge", fields⟩)], listing := [⟨.root "Gauge", false⟩] }
  type := ⟨"Gauge", fields⟩

/-- The level of a gauge, under a number. -/
def levelField (number : Nat) : Field :=
  ⟨number, "level", none, .scalar .int32 false⟩

/-- The unit of a gauge. -/
def unitField : Field :=
  ⟨2, "unit", none, .scalar .string false⟩

namespace Registry

/-- Gauges with a level under the number 1 come about by taking a file. -/
theorem reachable_gauge : (gaugeBinding [levelField 1]).registry.Reachable :=
  .addFile (.empty {}) (show Registry.addFile _
    (gaugeFile [{ name := "level", number := 1, typeCode := some 5 }]) = .ok _ from rfl)

/-- So do gauges with a level under the number 2. -/
theorem reachable_renumberedGauge : (gaugeBinding [levelField 2]).registry.Reachable :=
  .addFile (.empty {}) (show Registry.addFile _
    (gaugeFile [{ name := "level", number := 2, typeCode := some 5 }]) = .ok _ from rfl)

/-- A level refers to no type. -/
theorem linked_gauge (number : Nat) : (gaugeBinding [levelField number]).registry.Linked := by
  intro name type htype field hfield
  have hmem := mem_messages_of_messageType htype
  obtain rfl := (Prod.mk.inj (List.mem_singleton.1 hmem)).2
  rw [List.mem_singleton.1 hfield]
  trivial

end Registry

namespace Binding

/-- Gauges without a unit write as gauges with a unit, which lists it behind the level. -/
theorem writesAs_gauge : (gaugeBinding [levelField 1]).WritesAs
    (gaugeBinding [levelField 1, unitField]) := by
  refine ⟨fun type type' => type.fields = [levelField 1] ∧ type'.fields = [levelField 1, unitField],
    ?_, rfl, rfl⟩
  rintro type type' ⟨hfields, hfields'⟩ i field hfield
  rw [hfields] at hfield
  rw [hfields']
  rcases i with _ | i <;> cases hfield
  refine ⟨_, rfl, rfl, ?_⟩
  have hlevel : (levelField 1).kind = (MapValue.scalar .int32).fieldKind := rfl
  rw [hlevel]
  exact .single .scalar

/-- Gauges that have a unit but say none are written as they write themselves; gauges whose level
has another number are not. -/
theorem encode_message_gauge :
    ((gaugeBinding [levelField 1, unitField]).message [some (.i32 5)]).encode = .ok [8, 5] ∧
      ¬ (gaugeBinding [levelField 2]).Respects (gaugeBinding [levelField 1]) := by
  obtain ⟨_, _, _, hrespects, _⟩ :=
    encode_message (gaugeBinding [levelField 1]) (gaugeBinding [levelField 1, unitField])
  obtain ⟨_, _, _, _, hwritesAs⟩ :=
    encode_message (gaugeBinding [levelField 2]) (gaugeBinding [levelField 1])
  constructor
  · exact hrespects (fun _ => writesAs_gauge) [some (.i32 5)] [8, 5] (by cbv)
  · intro h
    obtain ⟨R, hsimulation, hR⟩ :=
      hwritesAs Registry.reachable_renumberedGauge (Registry.linked_gauge 2) rfl h rfl
    obtain ⟨field', hfield', hnumber, _⟩ := hsimulation _ _ hR 0 _ rfl
    cases hfield'
    cases hnumber

/-- A binding does not respect all messages of another registry: if the level of gauges has another
number there, it is written under the wrong number. -/
theorem not_encode_message_renumbered :
    ¬ ∀ binding other : Binding, binding.registry.Reachable → other.registry.Reachable →
      binding.registry.messageType binding.type.name = .ok binding.type →
      other.registry.messageType other.type.name = .ok other.type → binding.Respects other := by
  intro h
  have hwritten : (gaugeBinding [levelField 2]).encode
      (.message ((gaugeBinding [levelField 1]).message [some (.i32 1)])) = .ok [16, 1] := by cbv
  have hown : ((gaugeBinding [levelField 1]).message [some (.i32 1)]).encode = .ok [8, 1] := by cbv
  have hrespected := h _ _ Registry.reachable_renumberedGauge Registry.reachable_gauge rfl rfl _ _
    hwritten
  rw [hown] at hrespected
  cases hrespected

end Binding

end DynProto
