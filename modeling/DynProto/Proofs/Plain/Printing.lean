import DynProto.Message
import DynProto.Proofs.Json.Layout
import DynProto.Proofs.Plain.RoundTrip
import DynProto.Proofs.Produced
import DynProto.Proofs.Record.Floatless

/-!
# Messages printed as text

A message without floating-point numbers that a codec produced is printed as a text from which it is
read back, on one line or on many, unless the reader of the text stops at its own bound on brackets
(`decodeText_print`). That bound is not the recursion limit: a message that is nested in a list or a
map opens two brackets, and those of the outermost message and of the lists in the innermost one
come on top (`printsWithin_of_write`). So trees that are nested well within the recursion limit are
printed as texts that are refused (`not_decodeText_print_chain`), while a nesting of 62 messages
fits whatever the types.
-/

namespace DynProto.Plain

open Wire (except_bind_eq_ok)

variable {registry : Registry} {owner : String} {field : Field} {type : MessageType}

/-! ## What is written, part by part -/

/-- A JSON value that its text determines, with at most so many brackets nested in one another. -/
structure PrintsWithin (bound : Nat) (json : Json) : Prop where
  /-- The text determines the value. -/
  printable : json.Printable
  /-- The brackets are within the bound. -/
  nesting_le : json.nesting ≤ bound

/-- A larger bound is a bound as well. -/
theorem PrintsWithin.mono {bound bound' : Nat} {json : Json} (h : PrintsWithin bound json)
    (hle : bound ≤ bound') : PrintsWithin bound' json :=
  ⟨h.printable, Nat.le_trans h.nesting_le hle⟩

/-- The brackets of an array come on top of those of its items. -/
theorem printsWithin_array {bound : Nat} {items : List Json}
    (h : ∀ item ∈ items, PrintsWithin bound item) : PrintsWithin (bound + 1) (.array items) where
  printable := .array fun item hitem => (h item hitem).printable
  nesting_le :=
    Nat.succ_le_succ (Json.itemsNesting_le_iff.2 fun item hitem => (h item hitem).nesting_le)

/-- The brackets of an object come on top of those of its members, whatever their order was. -/
theorem printsWithin_object {bound : Nat} {members : List (String × Json)}
    (h : ∀ member ∈ members, PrintsWithin bound member.2) :
    PrintsWithin (bound + 1) (.object (OrderedMap.ofList members)) where
  printable := .object (OrderedMap.ordered_ofList members) fun member hmember =>
    (h member (OrderedMap.mem_of_mem_ofList hmember)).printable
  nesting_le := Nat.succ_le_succ (Json.membersNesting_le_iff.2 fun member hmember =>
    (h member (OrderedMap.mem_of_mem_ofList hmember)).nesting_le)

/-- A 32-bit integer is written as an integer. -/
theorem integral_ofInt32 (n : Int32) : (Json.Number.ofInt32 n).Integral := by
  unfold Json.Number.ofInt32
  split
  · rename_i hneg
    rw [Int32.lt_iff_toInt_lt] at hneg
    show n.toInt64 < 0
    rw [Int64.lt_iff_toInt_lt, Int32.toInt_toInt64]
    exact hneg
  · trivial

/-- A value of a scalar kind without floating-point numbers is written without brackets. -/
theorem printsWithin_of_fits {kind : Scalar} (hkind : kind.Floatless) {v : Value}
    (hv : v.fits kind = true) {json : Json} (h : writeValue v = .ok json) :
    PrintsWithin 0 json := by
  cases v
  case bool b => cases h; exact ⟨.bool b, Nat.le_refl _⟩
  case i32 n => cases h; exact ⟨.number (integral_ofInt32 n), Nat.le_refl _⟩
  case u32 n => cases h; exact ⟨.number trivial, Nat.le_refl _⟩
  case i64 | u64 | string | bytes => cases h; exact ⟨.string _, Nat.le_refl _⟩
  case f32 | f64 => simp_all [Value.fits, Scalar.Floatless]
  case enum | list | message | map => simp_all [Value.fits]

/-- The number of an enum value is written without brackets. -/
theorem printsWithin_of_enum {n : Int32} {json : Json} (h : writeValue (.enum n) = .ok json) :
    PrintsWithin 0 json := by
  cases h
  exact ⟨.number (integral_ofInt32 n), Nat.le_refl _⟩

/-- A list is written as an array, with brackets on top of those of its elements. -/
theorem printsWithin_of_list {vs : List Value}
    (helements : ∀ v ∈ vs, ∀ item, writeValue v = .ok item → PrintsWithin 0 item) {json : Json}
    (h : writeValue (.list vs) = .ok json) : PrintsWithin 1 json := by
  rw [writeValue] at h
  obtain ⟨items, hitems, h⟩ := except_bind_eq_ok.1 h
  cases h
  rw [writeValues_eq_mapM, mapM_eq_ok_iff] at hitems
  refine printsWithin_array fun item hitem => ?_
  obtain ⟨v, hv, hwrite⟩ := exists_of_forall₂ hitems.flip hitem
  exact helements v hv item hwrite

/-- The members of an object are written from the values in the slots, each for its field. -/
theorem exists_of_mem_writeSlots {fields : List Field} {keys : List String} {slots : Record}
    {members : List (String × Json)}
    (h : writeSlots registry owner fields keys slots = .ok members) {member : String × Json}
    (hmember : member ∈ members) :
    ∃ i field v, fields[i]? = some field ∧ slots.value? i = some v ∧
      writeField registry owner field v = .ok member.2 := by
  induction slots generalizing fields keys members with
  | nil =>
    rcases fields with _ | ⟨field, fields⟩ <;> rcases keys with _ | ⟨key, keys⟩ <;> cases h <;>
      cases hmember
  | cons slot slots ih =>
    rcases fields with _ | ⟨field, fields⟩
    · cases h
      cases hmember
    rcases keys with _ | ⟨key, keys⟩
    · cases h
      cases hmember
    cases slot with
    | none =>
      obtain ⟨i, found⟩ := ih h hmember
      exact ⟨i + 1, found⟩
    | some v =>
      rw [writeSlots] at h
      obtain ⟨json, hjson, h⟩ := except_bind_eq_ok.1 h
      obtain ⟨more, hmore, h⟩ := except_bind_eq_ok.1 h
      cases h
      rcases List.mem_cons.1 hmember with rfl | hmember
      · exact ⟨0, field, v, rfl, rfl, hjson⟩
      · obtain ⟨i, found⟩ := ih hmore hmember
        exact ⟨i + 1, found⟩

/-- The items of an array are written from the messages of the list. -/
theorem exists_of_mem_writeMessages {vs : List Value} {items : List Json}
    (h : writeMessages registry owner field type vs = .ok items) {item : Json}
    (hitem : item ∈ items) :
    ∃ slots, .message slots ∈ vs ∧ write registry type slots = .ok item := by
  induction vs generalizing items with
  | nil =>
    cases h
    cases hitem
  | cons v vs ih =>
    cases v
    case message slots =>
      rw [writeMessages] at h
      obtain ⟨first, hfirst, h⟩ := except_bind_eq_ok.1 h
      obtain ⟨rest, hrest, h⟩ := except_bind_eq_ok.1 h
      cases h
      rcases List.mem_cons.1 hitem with rfl | hitem
      · exact ⟨slots, List.mem_cons_self, hfirst⟩
      · obtain ⟨slots, hslots, hwrite⟩ := ih hrest hitem
        exact ⟨slots, List.mem_cons_of_mem _ hslots, hwrite⟩
    all_goals cases h

/-! ## Fields and messages -/

/-- The messages that a value holds are written with at most two brackets for each nesting and two
of their own. -/
def InnerPrintsWithin (registry : Registry) (kind : FieldKind) (v : Value) : Prop :=
  ∀ name slots child json, kind.Holds v name slots → registry.codecMessageType name = .ok child →
    write registry child slots = .ok json → PrintsWithin (2 * slots.depth + 2) json

/-- The value of an entry is written with at most two brackets for each nesting. -/
theorem printsWithin_of_writeEntry {value : MapValue} {v : Value} {child? : Option MessageType}
    (hfloatless : value.fieldKind.Floatless) (hsuits : value.fieldKind.Suits registry v)
    (hinner : InnerPrintsWithin registry value.fieldKind v)
    (hchild : ∀ name, value = .message name → ∃ child, child? = some child ∧
      registry.codecMessageType name = .ok child)
    {json : Json} (h : writeEntry registry owner field child? v = .ok json) :
    PrintsWithin (2 * v.depth) json := by
  rcases value with kind | name | name
  · have hfits := hsuits.fits
    have hjson : writeValue v = .ok json := by
      cases v
      case message => simp [Value.fits] at hfits
      all_goals
        rw [writeEntry.eq_def] at h
        cases child? <;> exact ofField_eq_ok.1 h
    exact (printsWithin_of_fits hfloatless hfits hjson).mono (Nat.zero_le _)
  · rcases hsuits with _ | @⟨_, n⟩ | _
    have hjson : writeValue (.enum n) = .ok json := by
      rw [writeEntry.eq_def] at h
      cases child? <;> exact ofField_eq_ok.1 h
    exact (printsWithin_of_enum hjson).mono (Nat.zero_le _)
  · obtain ⟨slots, rfl⟩ := hsuits.exists_message
    obtain ⟨child, rfl, hfound⟩ := hchild name rfl
    rw [writeEntry.eq_def] at h
    exact hinner name slots child json .single hfound h

/-- A map is written as an object of its entries. -/
theorem printsWithin_of_entries {key : Scalar} {value : MapValue}
    {entries : List (MapKey × Value)} {child? : Option MessageType}
    (hfloatless : (FieldKind.map key value).Floatless)
    (hsuits : (FieldKind.map key value).Suits registry (.map entries))
    (hinner : InnerPrintsWithin registry (.map key value) (.map entries))
    (hchild : ∀ name, value = .message name → ∃ child, child? = some child ∧
      registry.codecMessageType name = .ok child)
    {members : List (String × Json)}
    (h : writeEntries registry owner field child? entries = .ok members) :
    PrintsWithin (2 * (Value.map entries).depth + 1) (.object (OrderedMap.ofList members)) := by
  rcases hsuits with _ | _ | _ | _ | _ | _ | ⟨_, _, hvalues⟩
  rw [writeEntries_eq_mapM, mapM_eq_ok_iff] at h
  refine printsWithin_object fun member hmember => ?_
  obtain ⟨entry, hentry, hwrite⟩ := exists_of_forall₂ h.flip hmember
  obtain ⟨json, hjson, rfl⟩ := except_map_eq_ok.1 hwrite
  have hdepth : entry.2.depth ≤ (Value.map entries).depth :=
    Value.entriesDepth_le_iff.1 (Nat.le_refl _) entry hentry
  have hentryInner : InnerPrintsWithin registry value.fieldKind entry.2 :=
    fun name slots child json hholds => hinner name slots child json (hholds.of_entry hentry)
  exact (printsWithin_of_writeEntry hfloatless.value (hvalues entry hentry) hentryInner hchild
    hjson).mono (by omega)

/-- The value of a field is written with at most two brackets for each nesting and one of its
own. -/
theorem printsWithin_of_writeField (hfloatless : field.kind.Floatless) {v : Value}
    (hsuits : field.kind.Suits registry v) (hinner : InnerPrintsWithin registry field.kind v)
    {json : Json} (h : writeField registry owner field v = .ok json) :
    PrintsWithin (2 * v.depth + 1) json := by
  generalize hkind : field.kind = kind at hfloatless hsuits hinner
  rw [writeField.eq_def, hkind] at h
  rcases hsuits with @⟨kind, v, hfits⟩ | @⟨name, n⟩ | @⟨name, slots, child, hchild⟩ |
    @⟨kind, vs, hfits⟩ | @⟨name, vs, hnumbers⟩ | @⟨name, vs, hmessages⟩ |
    @⟨key, value, entries, hordered, hkeys, hvalues⟩
  case scalar =>
    exact (printsWithin_of_fits hfloatless hfits (ofField_eq_ok.1 h)).mono (Nat.zero_le _)
  case enum => exact (printsWithin_of_enum (ofField_eq_ok.1 h)).mono (Nat.zero_le _)
  case message =>
    obtain ⟨found, hfound, h⟩ := except_bind_eq_ok.1 h
    exact (hinner name slots found json .single hfound h).mono (by rw [Record.depth_message]; omega)
  case scalars =>
    refine (printsWithin_of_list (fun v hv item hitem => ?_) (ofField_eq_ok.1 h)).mono (by omega)
    exact printsWithin_of_fits hfloatless (hfits v hv) hitem
  case enums =>
    refine (printsWithin_of_list (fun v hv item hitem => ?_) (ofField_eq_ok.1 h)).mono (by omega)
    obtain ⟨n, rfl⟩ := hnumbers v hv
    exact printsWithin_of_enum hitem
  case messages =>
    obtain ⟨found, hfound, h⟩ := except_bind_eq_ok.1 h
    obtain ⟨items, hitems, h⟩ := except_bind_eq_ok.1 h
    cases h
    refine printsWithin_array fun item hitem => ?_
    obtain ⟨slots, hslots, hwrite⟩ := exists_of_mem_writeMessages hitems hitem
    have hdepth : (Value.message slots).depth ≤ (Value.list vs).depth :=
      Value.elementsDepth_le_iff.1 (Nat.le_refl _) _ hslots
    rw [Record.depth_message] at hdepth
    exact (hinner name slots found item (.element hslots) hfound hwrite).mono (by omega)
  case map =>
    rcases value with kind | name | name
    case message =>
      obtain ⟨found, hfound, h⟩ := except_bind_eq_ok.1 h
      obtain ⟨members, hmembers, h⟩ := except_bind_eq_ok.1 h
      cases h
      refine printsWithin_of_entries hfloatless (.map hordered hkeys hvalues) hinner ?_ hmembers
      rintro _ ⟨⟩
      exact ⟨found, rfl, hfound⟩
    all_goals
      obtain ⟨members, hmembers, h⟩ := except_bind_eq_ok.1 h
      cases h
      exact printsWithin_of_entries hfloatless (.map hordered hkeys hvalues) hinner
        (fun _ heq => by cases heq) hmembers

variable {record : Record}

/-- A well-formed record without floating-point numbers is written with at most two brackets for
each nesting and two of its own. -/
theorem printsWithin_of_write (hrecord : record.WellFormed registry type)
    (htype : type.Floatless registry) {json : Json} (h : write registry type record = .ok json) :
    PrintsWithin (2 * record.depth + 2) json := by
  induction record using Record.depth_induction generalizing type json with
  | h record ih =>
    unfold write objectOf at h
    split at h
    · cases h
    obtain ⟨members, hmembers, h⟩ := except_bind_eq_ok.1 h
    cases h
    refine printsWithin_object fun member hmember => ?_
    obtain ⟨i, field, v, hfield, hv, hwrite⟩ := exists_of_mem_writeSlots hmembers hmember
    have hmem : field ∈ type.fields := List.mem_of_getElem? hfield
    have hinner : InnerPrintsWithin registry field.kind v := by
      intro name slots child json hholds hchild hjson
      exact ih slots (hholds.depth_lt_of_value? hv) (hrecord.inner hfield hv hholds hchild)
        (htype.refers (.field .self hmem hholds.messageName?_eq hchild)) hjson
    have hdepth : v.depth ≤ record.depth := Record.depth_le_iff.1 (Nat.le_refl _) i v hv
    exact (printsWithin_of_writeField (htype.fieldKind hmem)
      (hrecord.holds.suits i field v hfield hv) hinner hwrite).mono (by omega)

/-! ## Trees that are nested in lists -/

/-- A tree with a single child that has a single child, and so on. -/
def chain : Nat → Record
  | 0 => treeType.defaultRecord
  | n + 1 => [some (.i32 0), some (.list [.message (chain n)]), some (.map [])]

/-- The plain object of such a tree. -/
def chainJson : Nat → Json
  | 0 => .object [("children", .array []), ("label", .number (.natural 0)), ("named", .object [])]
  | n + 1 => .object [("children", .array [chainJson n]), ("label", .number (.natural 0)),
    ("named", .object [])]

/-- The tree is as deep as it has descendants. -/
theorem depth_chain (n : Nat) : (chain n).depth = n := by
  induction n with
  | zero => rfl
  | succ n ih =>
    show max 0 (max (max ((chain n).depth + 1) 0) _) = n + 1
    rw [ih]
    simp [Value.slotsDepth, Value.depth, Value.entriesDepth]

/-- Every descendant costs two brackets. -/
theorem nesting_chainJson (n : Nat) : (chainJson n).nesting = 2 * n + 2 := by
  induction n with
  | zero => rfl
  | succ n ih =>
    simp [chainJson, Json.nesting, Json.membersNesting, Json.itemsNesting, ih]
    omega

/-- The tree is written as its plain object. -/
theorem write_chain (options : Options) (n : Nat) :
    write (treeRegistry options) treeType (chain n) = .ok (chainJson n) := by
  induction n with
  | zero => rfl
  | succ n ih =>
    have hchildren : writeField (treeRegistry options) "Tree"
        ⟨2, "children", none, .message "Tree" true⟩ (.list [.message (chain n)])
        = .ok (.array [chainJson n]) := by
      have hitems : writeMessages (treeRegistry options) "Tree"
          ⟨2, "children", none, .message "Tree" true⟩ treeType [.message (chain n)]
          = .ok [chainJson n] := by
        rw [writeMessages]
        exact except_bind_eq_ok.2 ⟨_, ih, rfl⟩
      rw [writeField.eq_def]
      exact except_bind_eq_ok.2 ⟨treeType, rfl, except_bind_eq_ok.2 ⟨_, hitems, rfl⟩⟩
    have hmembers : writeSlots (treeRegistry options) "Tree" treeType.fields treeType.plainKeys
        (chain (n + 1)) = .ok [("label", .number (.natural 0)),
          ("children", .array [chainJson n]), ("named", .object [])] := by
      show writeSlots (treeRegistry options) "Tree" treeType.fields ["label", "children", "named"]
        _ = _
      rw [chain, treeType, writeSlots, writeSlots, writeSlots, hchildren]
      rfl
    unfold write objectOf
    rw [if_neg (by show ¬ 3 < 3; decide)]
    refine except_bind_eq_ok.2 ⟨_, hmembers, ?_⟩
    cbv

/-- The tree is read from its plain object where there are enough levels. -/
theorem readLevels_chainJson (options : Options) (unknown : UnknownKeys) {n levels : Nat}
    (h : n < levels) :
    readLevels (treeRegistry options) unknown levels treeType (chainJson n) = .ok (chain n) := by
  induction n generalizing levels with
  | zero =>
    obtain ⟨levels, rfl⟩ := Nat.exists_eq_succ_of_ne_zero (Nat.ne_zero_of_lt h)
    rfl
  | succ n ih =>
    obtain ⟨levels, rfl⟩ := Nat.exists_eq_succ_of_ne_zero (Nat.ne_zero_of_lt h)
    have hchild := ih (Nat.lt_of_succ_lt_succ h)
    have hchildren : readMember (readLevels (treeRegistry options) unknown levels)
        (treeRegistry options) unknown treeType treeType.defaultRecord "children"
        (.array [chainJson n])
        = .ok [some (.i32 0), some (.list [.message (chain n)]), some (.map [])] := by
      show ([chainJson n].mapM (readLevels (treeRegistry options) unknown levels treeType) >>=
        fun _ => _) >>= _ = _
      rw [List.mapM_cons, hchild]
      rfl
    rw [chainJson, readLevels, readObject, List.foldlM_cons]
    exact except_bind_eq_ok.2 ⟨_, hchildren, rfl⟩

end DynProto.Plain

namespace DynProto

/-! ## Texts -/

/-- Whatever the flags, a printed value is read back if its brackets fit. -/
theorem parse?_print {message : Message} {json : Json} (hjson : message.toJson = .ok json)
    (hprintable : json.Printable) (flags : PrintFlags) :
    ∃ text, message.print flags = .ok text ∧
      Json.parse? text = if json.nesting ≤ Json.maxDepth then some json else none := by
  unfold Message.print
  rw [hjson]
  by_cases hflags : flags.contains .pretty = true
  · exact ⟨json.pretty, by simp [Except.map, hflags], Json.parse?_pretty hprintable⟩
  · exact ⟨json.compact, by simp [Except.map, hflags], Json.parse?_compact hprintable⟩

namespace Binding

variable {binding : Binding} {name : String} {record : Record}

/-- A message without floating-point numbers that a codec produced within the recursion limit is
printed, and read back from the text if its brackets fit the reader of the text; otherwise the text
is refused. There are at most two brackets for each nesting and two on top. -/
theorem decodeText_print (hlinked : binding.registry.Linked)
    (hkeyed : binding.registry.PlainKeyed)
    (htype : binding.registry.messageType name = .ok binding.type)
    (hfloatless : binding.type.Floatless binding.registry)
    (hrecord : Produced binding.registry binding.type record)
    (hdepth : record.depth ≤ binding.registry.options.recursionLimit.toNat) :
    ∃ json, (binding.message record).toJson = .ok json ∧
      json.nesting ≤ 2 * record.depth + 2 ∧
      ∀ flags, ∃ text, (binding.message record).print flags = .ok text ∧
        binding.decodeText text
          = if json.nesting ≤ Json.maxDepth then .ok (binding.message record)
            else .error (.json binding.type.name .notJson) := by
  obtain ⟨hwellFormed, bytes, hbytes⟩ := encode_of_produced hrecord
  obtain ⟨json, hjson, hdenotes⟩ := Plain.shown_of_encode
    (if binding.registry.options.ignoreUnknownJsonFields then .ignore else .refuse) hlinked hkeyed
    htype (exact_of_floatless hwellFormed hfloatless) hbytes
  have hprints := Plain.printsWithin_of_write hwellFormed hfloatless hjson
  have hread : Plain.decode binding.registry binding.type json = .ok record := by
    have hlevels := hdenotes (binding.registry.options.recursionLimit.toNat + 1)
    rw [if_pos (Nat.lt_succ_of_le hdepth), Record.canonical_of_wellFormed hwellFormed] at hlevels
    exact hlevels
  refine ⟨json, hjson, hprints.nesting_le, fun flags => ?_⟩
  obtain ⟨text, hprint, hparse⟩ :=
    parse?_print (show (binding.message record).toJson = _ from hjson) hprints.printable flags
  refine ⟨text, hprint, ?_⟩
  unfold decodeText Plain.decodeText
  rw [hparse]
  split_ifs
  · simp only [hread]
    rfl
  · rfl

/-- A tree with a named child is read back from either text. -/
theorem decodeText_print_namedTree :
    ∃ json, (message ⟨treeRegistry {}, treeType⟩ [some (.i32 0), some (.list []),
        some (.map [(.string "left",
          .message [some (.i32 3), some (.list []), some (.map [])])])]).toJson = .ok json ∧
      json.nesting ≤ 2 * 1 + 2 ∧
      ∀ flags, ∃ text, (message ⟨treeRegistry {}, treeType⟩ [some (.i32 0), some (.list []),
          some (.map [(.string "left", .message [some (.i32 3), some (.list []),
            some (.map [])])])]).print flags = .ok text ∧
        decodeText ⟨treeRegistry {}, treeType⟩ text
          = if json.nesting ≤ Json.maxDepth then
              .ok (message ⟨treeRegistry {}, treeType⟩ [some (.i32 0), some (.list []),
                some (.map [(.string "left",
                  .message [some (.i32 3), some (.list []), some (.map [])])])])
            else .error (.json "Tree" .notJson) :=
  decodeText_print (Registry.linked_tree {}) (Registry.plainKeyed_tree {})
    (show (treeRegistry {}).messageType "Tree" = .ok treeType from rfl) (floatless_tree {})
    (.create (show Plain.create (treeRegistry {}) treeType
      (some (.object [("named", .object [("left", .object [("label", .number (.natural 3))])])]))
        = .ok _ from rfl))
    (by decide)

/-- Trees that are nested on 63 levels are created and printed under a recursion limit of 100, and
their plain object is read back, but both of its texts are refused. -/
theorem not_decodeText_print_chain :
    (treeRegistry {}).Linked ∧ (treeRegistry {}).PlainKeyed ∧
      (treeRegistry {}).messageType "Tree" = .ok treeType ∧ treeType.Floatless (treeRegistry {}) ∧
      create ⟨treeRegistry {}, treeType⟩ (some (Plain.chainJson 63))
        = .ok (message ⟨treeRegistry {}, treeType⟩ (Plain.chain 63)) ∧
      (Plain.chain 63).depth ≤ (treeRegistry {}).options.recursionLimit.toNat ∧
      Plain.decode (treeRegistry {}) treeType (Plain.chainJson 63) = .ok (Plain.chain 63) ∧
      ∀ flags, ∃ text,
        (message ⟨treeRegistry {}, treeType⟩ (Plain.chain 63)).print flags = .ok text ∧
          decodeText ⟨treeRegistry {}, treeType⟩ text = .error (.json "Tree" .notJson) := by
  have hjson : (message ⟨treeRegistry {}, treeType⟩ (Plain.chain 63)).toJson
      = .ok (Plain.chainJson 63) := Plain.write_chain {} 63
  have hread : ∀ unknown, Plain.read (treeRegistry {}) unknown treeType (Plain.chainJson 63)
      = .ok (Plain.chain 63) := fun unknown =>
    Plain.readLevels_chainJson {} unknown (by decide)
  have hwellFormed : (Plain.chain 63).WellFormed (treeRegistry {}) treeType :=
    Plain.wellFormed_of_read (hread .ignore)
  have hprints := Plain.printsWithin_of_write hwellFormed (floatless_tree {}) hjson
  refine ⟨Registry.linked_tree {}, Registry.plainKeyed_tree {}, rfl, floatless_tree {}, ?_,
    by rw [Plain.depth_chain]; decide, hread _, fun flags => ?_⟩
  · exact except_map_eq_ok.2 ⟨_, hread .ignore, rfl⟩
  · obtain ⟨text, hprint, hparse⟩ := parse?_print hjson hprints.printable flags
    refine ⟨text, hprint, ?_⟩
    rw [if_neg (by rw [Plain.nesting_chainJson]; decide)] at hparse
    unfold decodeText Plain.decodeText
    rw [hparse]
    rfl

end Binding

end DynProto
