import DynProto.Proofs.Wire.Reading
import DynProto.Registry.Ingest

/-!
# Reading back descriptor sets

The fields of a descriptor set are read back one by one: texts (`reads_text`) and messages, whose
fields are read back in turn (`reads_node`). A set that is in no container is read back if its
fields are (`filesOf_of_reads`).
-/

namespace DynProto.Descriptor

open Wire

variable {depth number : Nat} {kind child : NodeKind} {name : String}

/-- A field whose content is read back is read back. -/
theorem reads_fieldWith {nested : NodeKind → Reader Fault Datum} {layout : FieldLayout}
    {content : Bytes} {datum : Datum} (hpos : 0 < number) (hlt : number < keyBound)
    (hfield : kind.field? number = some layout)
    (hcontent : (match layout.content with
      | .node child => nested child
      | leaf => (leafReader .delimited leaf).mapError .bare).Reads content datum) :
    (fieldWith depth nested kind).Reads (Key.bytes ⟨number, .delimited⟩ ++ content)
      (some (number, datum)) := by
  refine ((reads_key hpos hlt).mapError Fault.bare).andThen ?_
  simp only [hfield]
  exact (hcontent.mapError _).map rfl

/-- A field that holds a text is read back. -/
theorem reads_text {text : String} (hpos : 0 < number) (hlt : number < keyBound)
    (hfield : kind.field? number = some ⟨number, name, .string⟩)
    (htext : (Text.utf8 text).length < lengthBound) :
    (fieldReader depth kind).Reads
      (Key.bytes ⟨number, .delimited⟩ ++ delimited (Text.utf8 text))
      (some (number, .text text)) := by
  have hcontent : ((leafReader .delimited .string).mapError Fault.bare).Reads
      (delimited (Text.utf8 text)) (.text text) :=
    (((Wire.reads_text htext).map rfl).map rfl).mapError Fault.bare
  cases depth <;> exact reads_fieldWith hpos hlt hfield hcontent

/-- A field that holds a message is read back if the fields of the message are. -/
theorem reads_node {contents : List Bytes} {fields : List (Option (Nat × Datum))}
    (hpos : 0 < number) (hlt : number < keyBound)
    (hfield : kind.field? number = some ⟨number, name, .node child⟩)
    (hcontents : List.Forall₂ (fieldReader depth child).Reads contents fields)
    (hlength : contents.flatten.length < lengthBound) :
    (fieldReader (depth + 1) kind).Reads
      (Key.bytes ⟨number, .delimited⟩ ++ delimited contents.flatten)
      (some (number, .node (fields.filterMap id))) :=
  reads_fieldWith hpos hlt hfield ((reads_packed Fault.bare hcontents hlength).map rfl)

/-- The files of a descriptor set are those that its fields stand for. -/
theorem readFiles_of_reads {bytes : Bytes} {contents : List Bytes}
    {fields : List (Option (Nat × Datum))}
    (h : List.Forall₂ (fieldReader maxDepth .fileSet).Reads contents fields)
    (hcontents : contents.flatten = bytes) :
    readFiles bytes = .ok ((nodes 1 (fields.filterMap id)).map fileOfNode) := by
  have hread := untilLeft_flatten h []
  rw [List.append_nil, List.length_nil, hcontents] at hread
  unfold readFiles readSet
  rw [hread]
  rfl

/-- So are those of a schema in no container. -/
theorem filesOf_of_reads {buffer : Bytes} {contents : List Bytes}
    {fields : List (Option (Nat × Datum))}
    (h : List.Forall₂ (fieldReader maxDepth .fileSet).Reads contents fields)
    (hcontents : contents.flatten = buffer) (hbare : Container.strip buffer = .ok buffer) :
    Registry.filesOf buffer = .ok ((nodes 1 (fields.filterMap id)).map fileOfNode) := by
  unfold Registry.filesOf
  rw [hbare]
  show (readFiles buffer).mapError _ = _
  rw [readFiles_of_reads h hcontents]
  rfl

end DynProto.Descriptor
