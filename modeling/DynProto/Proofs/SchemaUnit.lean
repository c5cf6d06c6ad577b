import DynProto.Proofs.Descriptor.Reading
import DynProto.Proofs.Namespace
import DynProto.Proofs.Registry.Listing
import DynProto.SchemaUnit

/-!
# What a schema unit exposes

A schema whose declarations can be taken is loaded with all its message types at the ends of their
full names exactly if no segment of a listed name has a dot in it (`exposes_listed_iff`). A dot
inside a segment separates nothing in the name, but separates two nodes in the path that the full
name is looked up by; a leading one is dropped by the look-up in the registry, so that the unit is
not loaded at all.
-/

namespace DynProto

variable {registry : Registry} {names : Namespace} {name : QualifiedName} {summary : Summary}
  {options : Options} {buffer : Bytes}

/-- What is bound to a name is the message type with the name. -/
theorem Registry.binding_eq_ok_iff {path : String} {binding : Binding} :
    registry.binding path = .ok binding ↔
      ∃ type, registry.messageType path = .ok type ∧ ⟨registry, type⟩ = binding :=
  except_map_eq_ok

namespace SchemaUnit

/-- The unit has the message type with a name at the end of its full name. -/
def Exposes (unit : SchemaUnit) (name : QualifiedName) : Prop :=
  ∃ binding, unit.message? name.fullName = some binding ∧ binding.type.name = name.fullName

/-! ## Loading -/

/-- A unit is loaded if its declarations can be taken and all names can be bound. -/
theorem ofBytes_eq_ok_iff (h : ({ options } : Registry).addSet buffer = (registry, .ok summary))
    {unit : SchemaUnit} :
    ofBytes buffer options = .ok unit ↔
      ∃ names, registry.resolve.populate .empty registry.resolve.messageNames = (names, .ok ()) ∧
        unit = ⟨registry.resolve, names, summary⟩ := by
  unfold ofBytes
  rw [h]
  simp only [Registry.namespaceOf]
  rcases registry.resolve.populate .empty registry.resolve.messageNames with ⟨names, error | ⟨⟩⟩
  · simp [Except.map]
  · simp [Except.map, eq_comm]

/-- A registry without dots in the segments of what it lists finds and binds all of it. -/
theorem exists_populate (hlisted : registry.WellListed)
    (hempty : ∀ name ∈ registry.messageNames, "" ∉ name.segments)
    (hdot : ∀ name ∈ registry.messageNames, name.Undotted) :
    ∃ names, registry.populate .empty registry.messageNames = (names, .ok ()) := by
  have hfound : ∀ name ∈ registry.messageNames, ∃ b, registry.binding name.fullName = .ok b := by
    intro name hname
    have hself := QualifiedName.withoutLeadingDot_fullName (hempty name hname) (hdot name hname)
    obtain ⟨type, htype⟩ := hlisted.exists_messageType hname hself
    exact ⟨_, Registry.binding_eq_ok_iff.2 ⟨type, htype, rfl⟩⟩
  have hok := Tree.populate_of_lookup .empty hfound
  exact ⟨_, Prod.ext rfl hok⟩

/-! ## Looking up -/

/-- What is looked up by the full name of a listed type is the type with the path for its segments:
it is the listed type itself exactly if there are no dots in its segments. -/
theorem exposes_iff (hlisted : registry.WellListed) (hempty : "" ∉ name.segments)
    (hpopulate : registry.populate .empty registry.messageNames = (names, .ok ()))
    (hname : name ∈ registry.messageNames) :
    Exposes ⟨registry, names, summary⟩ name ↔ name.Undotted := by
  have hpopulated := Tree.populated_populate hpopulate
  -- whatever is bound was found for a listed name with this path
  have hbound : ∀ path binding, names.boundAt? path = some binding →
      ∃ other ∈ registry.messageNames, other.segments = path ∧
        binding.type.name = Dotted.withoutLeadingDot other.fullName := by
    intro path binding hbinding
    rcases hpopulated.found path binding hbinding with hbefore | ⟨other, hother, hpath, hfound⟩
    · rw [Tree.boundAt?_empty] at hbefore
      cases hbefore
    · obtain ⟨type, htype, rfl⟩ := Registry.binding_eq_ok_iff.1 hfound
      exact ⟨other, hother, hpath, hlisted.name_of_messageType htype⟩
  constructor
  · rintro ⟨binding, hmessage, htype⟩
    have hne : Dotted.withoutLeadingDot name.fullName ≠ "" := by
      intro hnil
      have hroot := (names.lookup?_eq_bound hnil).symm.trans hmessage
      obtain ⟨other, _, hpath, _⟩ := hbound [] binding hroot
      exact other.segments_ne_nil hpath
    have hpath := (names.lookup?_eq_boundAt? hne).symm.trans hmessage
    obtain ⟨other, hother, hsegments, hfound⟩ := hbound _ binding hpath
    have hfull := QualifiedName.fullName_of_segments hsegments
    rw [htype, hfull] at hfound
    have hself := Dotted.eq_of_withoutLeadingDot_twice hfound.symm
    have heq := hlisted.eq_of_fullName_eq hother hname (hfull.trans hself)
    rw [heq, hself] at hsegments
    exact QualifiedName.segments_fullName_iff.1 hsegments.symm
  · intro hdot
    have hself := QualifiedName.withoutLeadingDot_fullName hempty hdot
    have hne : Dotted.withoutLeadingDot name.fullName ≠ "" := by
      rw [hself]
      exact QualifiedName.fullName_ne_empty hempty hdot
    have hsegments := QualifiedName.segments_fullName_iff.2 hdot
    obtain ⟨binding, hbinding⟩ := hpopulated.bound name hname
    obtain ⟨other, _, hpath, htype⟩ := hbound _ binding hbinding
    rw [QualifiedName.fullName_of_segments (hpath.trans hsegments.symm), hself] at htype
    refine ⟨binding, ?_, htype⟩
    have hlookup := names.lookup?_eq_boundAt? hne
    rw [hself, hsegments] at hlookup
    exact hlookup.trans hbinding

/-! ## Two schemas -/

/-- The octets of a schema with a package, a message and a message inside it. -/
def nestedSet : Bytes :=
  [10, 21, 18, 1, 112, 34, 16, 10, 5, 79, 117, 116, 101, 114, 26, 7, 10, 5, 73, 110, 110, 101, 114]

/-- The octets of a schema with a message whose symbol opens with a dot. -/
def dottedSet : Bytes :=
  [10, 6, 34, 4, 10, 2, 46, 77]

open Descriptor Wire in
/-- The schema with a message inside a message is read. -/
theorem filesOf_nestedSet : Registry.filesOf nestedSet = .ok [
    { package := "p"
      messages := [.mk "Outer" [] [.mk "Inner" [] [] [] false] [] false] }] := by
  have hinner : (fieldReader 97 .message).Reads _ (some (1, .text "Inner")) :=
    reads_text (by decide) (by decide) rfl (by decide)
  have hnested : (fieldReader 98 .message).Reads _ (some (3, .node [(1, .text "Inner")])) :=
    reads_node (by decide) (by decide) rfl (.cons hinner .nil) (by cbv)
  have houter : (fieldReader 98 .message).Reads _ (some (1, .text "Outer")) :=
    reads_text (by decide) (by decide) rfl (by decide)
  have hpackage : (fieldReader 99 .file).Reads _ (some (2, .text "p")) :=
    reads_text (by decide) (by decide) rfl (by decide)
  have hmessage : (fieldReader 99 .file).Reads _
      (some (4, .node [(1, .text "Outer"), (3, .node [(1, .text "Inner")])])) :=
    reads_node (by decide) (by decide) rfl (.cons houter (.cons hnested .nil)) (by cbv)
  have hfile : (fieldReader maxDepth .fileSet).Reads _ (some (1, .node [(2, .text "p"),
      (4, .node [(1, .text "Outer"), (3, .node [(1, .text "Inner")])])])) :=
    reads_node (by decide) (by decide) rfl (.cons hpackage (.cons hmessage .nil)) (by cbv)
  exact filesOf_of_reads (.cons hfile .nil) (by cbv) rfl

open Descriptor Wire in
/-- So is the schema with a dot. -/
theorem filesOf_dottedSet :
    Registry.filesOf dottedSet = .ok [{ messages := [.mk ".M" [] [] [] false] }] := by
  have hname : (fieldReader 98 .message).Reads _ (some (1, .text ".M")) :=
    reads_text (by decide) (by decide) rfl (by decide)
  have hmessage : (fieldReader 99 .file).Reads _ (some (4, .node [(1, .text ".M")])) :=
    reads_node (by decide) (by decide) rfl (.cons hname .nil) (by cbv)
  have hfile : (fieldReader maxDepth .fileSet).Reads _
      (some (1, .node [(4, .node [(1, .text ".M")])])) :=
    reads_node (by decide) (by decide) rfl (.cons hmessage .nil) (by cbv)
  exact filesOf_of_reads (.cons hfile .nil) (by cbv) rfl

/-- The registry after the schema with a message inside a message. -/
def nestedRegistry : Registry where
  pending := [("p.Outer", ⟨"p.Outer", []⟩), ("p.Outer.Inner", ⟨"p.Outer.Inner", []⟩)]
  listing := [⟨.within (.within (.root "p") "Outer") "Inner", false⟩,
    ⟨.within (.root "p") "Outer", false⟩]

/-- The schema with a message inside a message is taken. -/
theorem addSet_nestedSet :
    ({ options := {} } : Registry).addSet nestedSet = (nestedRegistry, .ok ⟨1, 0⟩) := by
  unfold Registry.addSet
  rw [filesOf_nestedSet]
  rfl

/-- So is the schema with a dot. -/
theorem addSet_dottedSet : ({ options := {} } : Registry).addSet dottedSet
    = ({ pending := [(".M", ⟨".M", []⟩)], listing := [⟨.root ".M", false⟩] }, .ok ⟨1, 0⟩) := by
  unfold Registry.addSet
  rw [filesOf_dottedSet]
  rfl

/-! ## What is exposed -/

/-- A schema whose declarations can be taken is loaded with every listed message type at the end of
its full name exactly if no segment of a listed name has a dot in it. -/
theorem exposes_listed_iff
    (h : ({ options } : Registry).addSet buffer = (registry, .ok summary)) :
    (∃ unit, ofBytes buffer options = .ok unit ∧
        ∀ name ∈ unit.registry.messageNames, unit.Exposes name) ↔
      ∀ name ∈ registry.messageNames, name.Undotted := by
  have hreachable : Registry.Reachable registry := by
    have hset := Registry.Reachable.addSet (.empty options) buffer
    rwa [h] at hset
  have hlisted := Registry.wellListed_of_reachable hreachable.resolve
  have hempty : ∀ name ∈ registry.resolve.messageNames, "" ∉ name.segments := by
    intro name hname
    have hsegments := Registry.empty_not_mem_segments_of_addSet options buffer
    rw [h] at hsegments
    rw [Registry.messageNames_resolve] at hname
    exact hsegments _ (Registry.mem_messageNames.1 hname)
  rw [← registry.messageNames_resolve]
  constructor
  · rintro ⟨unit, hunit, hexposes⟩ name hname
    obtain ⟨names, hpopulate, rfl⟩ := (ofBytes_eq_ok_iff h).1 hunit
    exact (exposes_iff hlisted (hempty name hname) hpopulate hname).1 (hexposes name hname)
  · intro hdot
    obtain ⟨names, hpopulate⟩ := exists_populate hlisted hempty hdot
    refine ⟨_, (ofBytes_eq_ok_iff h).2 ⟨names, hpopulate, rfl⟩, ?_⟩
    intro name hname
    exact (exposes_iff hlisted (hempty name hname) hpopulate hname).2 (hdot name hname)

/-- The messages of the first schema are at the ends of their full names. -/
theorem exposes_listed_nested :
    ({ options := {} } : Registry).addSet nestedSet = (nestedRegistry, .ok ⟨1, 0⟩) ∧
      ∃ unit, ofBytes nestedSet {} = .ok unit ∧
        ∀ name ∈ unit.registry.messageNames, unit.Exposes name :=
  ⟨addSet_nestedSet, (exposes_listed_iff addSet_nestedSet).2 (by decide)⟩

/-- The second schema is taken and lists its message, but no unit is loaded from it. -/
theorem not_exposes_listed_dotted :
    ({ options := {} } : Registry).addSet dottedSet
        = ({ pending := [(".M", ⟨".M", []⟩)], listing := [⟨.root ".M", false⟩] }, .ok ⟨1, 0⟩) ∧
      ofBytes dottedSet {} = .error (.schema (.unknownType "M")) := by
  refine ⟨addSet_dottedSet, ?_⟩
  unfold ofBytes
  rw [addSet_dottedSet]
  rfl

end SchemaUnit

end DynProto
