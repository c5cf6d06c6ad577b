import DynProto.Proofs.Binary.RoundTrip

/-!
# Records read from octets, written again

A record that was read from octets can be written, and what is written is read as the same record,
with one exception: a map entry without a value is read as one that holds the default message, and
no level is counted for it. Written again, the entry has its value, and the value counts. So where
such an entry is in a message at the limit, the record is nested one level deeper than what was
read, and the octets written for it are refused.
-/

namespace DynProto.Binary

open Wire

variable {registry : Registry} {type : MessageType} {record : Record} {bytes : Bytes}

/-- A regular record of a type with numbers for its fields is readable throughout. -/
theorem readable_of_regular (hregistry : registry.Reachable) (hnumbered : type.Numbered)
    (h : Regular registry type record) : record.Throughout registry Readable type := by
  have hnumbers : record.Throughout registry (fun type _ => type.Numbered) type :=
    Record.throughout_of_forall hnumbered fun name child _ hchild =>
      Registry.numbered_of_messageType hregistry (Registry.messageType_of_codecMessageType hchild)
  refine (hnumbers.and h).mono fun type record hrecord i field v hfield hv => ?_
  obtain ⟨hnumbered, _, hclear⟩ := hrecord
  have hnumber := hnumbered field (List.mem_of_getElem? hfield)
  exact (hclear i field v hfield hv).imp_left fun hindex =>
    ⟨hfield, hindex, hnumber.1, Nat.lt_succ_of_le hnumber.2⟩

/-- A record that was read can be written, and what is written is read as the same record exactly if
messages are nested in it as deeply as the recursion limit says or less. -/
theorem decode_reencoded {name : String} (hregistry : registry.Reachable)
    (htype : registry.messageType name = .ok type)
    (hdecode : decode registry type bytes = .ok record) :
    ∃ again, encode registry type record = .ok again ∧ (again.length < lengthBound →
      decode registry type again
        = if record.depth ≤ registry.options.recursionLimit.toNat then .ok record
          else .error (.recursionLimit registry.options.recursionLimit)) := by
  have hregular := regular_of_decode hdecode
  have hwellFormed := wellFormed_of_decode hdecode
  obtain ⟨again, hagain⟩ := exists_encode_of_wellFormed hwellFormed
  refine ⟨again, hagain, fun hlength => ?_⟩
  have hnumbered := Registry.numbered_of_messageType hregistry htype
  have hread := merge_encode (registry.options.recursionLimit.toNat + 1)
    (readable_of_regular hregistry hnumbered hregular) again hagain hlength
  rw [Record.canonical_of_wellFormed hwellFormed] at hread
  simp only [Nat.lt_succ_iff] at hread
  exact hread

/-- A tree with a named child that is not nested too deeply comes back. -/
theorem decode_reencoded_named_tree :
    ∃ again, encode (treeRegistry {}) treeType
        [some (.i32 0), some (.list []), some (.map [(.string "",
          .message [some (.i32 0), some (.list []), some (.map [])])])] = .ok again ∧
      (again.length < lengthBound → decode (treeRegistry {}) treeType again
        = .ok [some (.i32 0), some (.list []), some (.map [(.string "",
          .message [some (.i32 0), some (.list []), some (.map [])])])]) :=
  decode_reencoded (Registry.reachable_tree {})
    (show (treeRegistry {}).messageType "Tree" = .ok treeType from rfl)
    (show decode (treeRegistry {}) treeType [26, 0] = _ by cbv)

/-- Where no nesting is allowed, an empty entry of a map is read as one with a default message, and
what is written for it is refused. -/
theorem decode_reencoded_empty_entry :
    decode (treeRegistry { recursionLimit := 0 }) treeType [26, 0]
        = .ok [some (.i32 0), some (.list []), some (.map [(.string "",
            .message [some (.i32 0), some (.list []), some (.map [])])])] ∧
      encode (treeRegistry { recursionLimit := 0 }) treeType
          [some (.i32 0), some (.list []), some (.map [(.string "",
            .message [some (.i32 0), some (.list []), some (.map [])])])]
        = .ok [26, 4, 10, 0, 18, 0] ∧
      decode (treeRegistry { recursionLimit := 0 }) treeType [26, 4, 10, 0, 18, 0]
        = .error (.recursionLimit 0) :=
  ⟨by cbv, by cbv, by cbv⟩

end DynProto.Binary
