import DynProto.Proofs.Container
import DynProto.Proofs.Descriptor.Reading

/-!
# Schemas in containers

Whether a schema comes in a container or bare makes no difference to the registry that takes it
(`addSet_frame`). A bare schema is never taken for a container, because the first octet of the tag
is no key of a field: its wire type is undefined (`not_magic_prefix_of_readFiles`).
-/

namespace DynProto

open Wire Descriptor

variable {index payload buffer : Bytes} {files : List FileDescriptor}

namespace Descriptor

/-- No field can be read where the tag stands, as it opens with a key of an undefined wire type. -/
theorem run_fieldReader_magic (depth : Nat) (kind : NodeKind) (rest : Bytes) :
    (fieldReader depth kind).run (Container.magic ++ rest) = .error (.bare (.wireType 6)) := by
  cases depth <;> rfl

/-- What opens with the tag is no descriptor set. -/
theorem readSet_magic (rest : Bytes) :
    readSet (Container.magic ++ rest) = .error (.bare (.wireType 6)) := by
  have hread : (fieldReader maxDepth .fileSet).untilLeft 0 (Container.magic ++ rest)
      = .error (.bare (.wireType 6)) := by
    unfold Reader.untilLeft
    rw [if_neg (by simp [show Container.magic.length = 8 from rfl])]
    split <;> rename_i hrun <;> rw [run_fieldReader_magic] at hrun <;> cases hrun
    rfl
  unfold readSet
  rw [hread]
  rfl

/-- A descriptor set does not open with the tag. -/
theorem not_magic_prefix_of_readFiles (h : readFiles payload = .ok files) :
    ¬ Container.magic <+: payload := by
  rintro ⟨rest, rfl⟩
  unfold readFiles at h
  rw [readSet_magic] at h
  cases h

end Descriptor

namespace Registry

/-- The files in a container are those of the payload, if it is none itself. -/
theorem filesOf_of_frame (hbare : ¬ Container.magic <+: payload)
    (h : Container.frame index payload = .ok buffer) : filesOf buffer = filesOf payload := by
  have hframed : Container.strip buffer = .ok payload := by
    unfold Container.strip
    rw [Container.parse_of_frame h]
    rfl
  have hpayload : Container.strip payload = .ok payload := by
    unfold Container.strip
    rw [Container.parse_of_not_magic hbare]
    rfl
  unfold filesOf
  rw [hframed, hpayload]

/-- A descriptor set does not open with the tag of containers, and in a container with any index
block it makes the same of every registry, with the same outcome, as it does bare. -/
theorem addSet_frame (hindex : index.length < 2 ^ 32) (hpayload : readFiles payload = .ok files) :
    ¬ Container.magic <+: payload ∧ ∃ buffer, Container.frame index payload = .ok buffer ∧
      ∀ registry : Registry, registry.addSet buffer = registry.addSet payload := by
  have hbare := not_magic_prefix_of_readFiles hpayload
  obtain ⟨buffer, hbuffer⟩ : ∃ buffer, Container.frame index payload = .ok buffer :=
    ⟨_, Container.frame_eq_ok_iff.2 ⟨hindex, rfl⟩⟩
  refine ⟨hbare, buffer, hbuffer, ?_⟩
  intro registry
  unfold addSet
  rw [filesOf_of_frame hbare hbuffer]

/-- The octets of a schema with a message `M`. -/
def messageSet : Bytes :=
  [10, 5, 34, 3, 10, 1, 77]

/-- The schema is read. -/
theorem readFiles_messageSet :
    readFiles messageSet = .ok [{ messages := [.mk "M" [] [] [] false] }] := by
  have hname : (fieldReader 98 .message).Reads _ (some (1, .text "M")) :=
    reads_text (by decide) (by decide) rfl (by decide)
  have hmessage : (fieldReader 99 .file).Reads _ (some (4, .node [(1, .text "M")])) :=
    reads_node (by decide) (by decide) rfl (.cons hname .nil) (by cbv)
  have hfile : (fieldReader maxDepth .fileSet).Reads _
      (some (1, .node [(4, .node [(1, .text "M")])])) :=
    reads_node (by decide) (by decide) rfl (.cons hmessage .nil) (by cbv)
  exact readFiles_of_reads (.cons hfile .nil) (by cbv)

/-- In a container with three octets of an index it makes the same of every registry. -/
theorem addSet_frame_message : [1, 2, 3].length < 2 ^ 32 ∧
    readFiles messageSet = .ok [{ messages := [.mk "M" [] [] [] false] }] ∧
    ¬ Container.magic <+: messageSet ∧ ∃ buffer, Container.frame [1, 2, 3] messageSet = .ok buffer ∧
      ∀ registry : Registry, registry.addSet buffer = registry.addSet messageSet :=
  ⟨by decide, readFiles_messageSet, addSet_frame (by decide) readFiles_messageSet⟩

end Registry

end DynProto
