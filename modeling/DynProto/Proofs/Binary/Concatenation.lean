import DynProto.Proofs.Binary.RoundTrip

/-!
# Octets that are put together

Octets that were written for a record, with any others behind them, are read by merging the record
into what is there and reading the others into the result (`merge_encode_append`). So the octets of
two records, put together, are read as the two records merged (`decode_append`).
-/

namespace DynProto.Binary

open Wire

variable {registry : Registry} {type : MessageType} {record base : Record} {front : Bytes}

/-- What is read from octets that were written is of its type throughout. -/
theorem wellFormed_canonical (h : record.Throughout registry Readable type)
    (hbytes : encode registry type record = .ok front) (hlength : front.length < lengthBound) :
    (registry.canonical type record).WellFormed registry type := by
  have hread := merge_encode (record.depth + 1) h front hbytes hlength
  rw [if_pos (Nat.lt_succ_self _)] at hread
  have hregular := keepsRegular_merge registry _ _ _ _ _ (regular_defaultRecord registry type) hread
  exact hregular.mono fun _ _ => And.left

/-- Octets that were written are merged first; those behind them are read into the result. -/
theorem merge_encode_append {levels : Nat} (h : record.Throughout registry Readable type)
    (hbase : base.WellFormed registry type) (hbytes : encode registry type record = .ok front)
    (hlength : front.length < lengthBound) (hdepth : record.depth ≤ levels) (back : Bytes) :
    merge registry (levels + 1) type base (front ++ back)
      = merge registry (levels + 1) type (base.merge (registry.canonical type record)) back := by
  obtain ⟨fields, hyields, hfold⟩ := exists_fields_of_encode h
    (fun child slots hslots => merge_encode_into levels hslots) hbase hbytes hlength
  rw [if_pos hdepth] at hfold
  rw [merge, foldFields_append hyields, hfold]
  rfl

/-- The octets of two records, put together, are read as the first record with the second one merged
into it. -/
theorem decode_append {name : String} {first second : Record} {bytes more : Bytes}
    (hregistry : registry.Reachable) (hdistinct : registry.DistinctNumbers)
    (htype : registry.messageType name = .ok type)
    (hbytes : encode registry type first = .ok bytes)
    (hmore : encode registry type second = .ok more)
    (hlength : bytes.length < lengthBound) (hlength' : more.length < lengthBound)
    (hdepth : first.depth ≤ registry.options.recursionLimit.toNat)
    (hdepth' : second.depth ≤ registry.options.recursionLimit.toNat) :
    decode registry type (bytes ++ more)
      = .ok ((registry.canonical type first).merge (registry.canonical type second)) := by
  have hreadable := throughout_readable hregistry hdistinct htype
  have hdefault := Record.wellFormed_defaultRecord registry type
  have hfirst := wellFormed_canonical (hreadable first) hbytes hlength
  rw [decode, merge_encode_append (hreadable first) hdefault hbytes hlength hdepth,
    Record.merge_defaultRecord hfirst.holds,
    merge_encode_into _ (hreadable second) _ more hfirst hmore hlength']
  exact if_pos (Nat.lt_succ_of_le hdepth')

/-- Of two trees, the label that is not zero counts, the children are joined, and a named child
replaces the one of its name as a whole. -/
theorem decode_append_trees :
    decode (treeRegistry {}) treeType
        ([8, 7, 18, 2, 8, 1, 26, 7, 10, 1, 97, 18, 2, 8, 5]
          ++ [18, 2, 8, 2, 26, 9, 10, 1, 97, 18, 4, 18, 2, 8, 9])
      = .ok [some (.i32 7),
          some (.list [.message [some (.i32 1), some (.list []), some (.map [])],
            .message [some (.i32 2), some (.list []), some (.map [])]]),
          some (.map [(.string "a", .message [some (.i32 0),
            some (.list [.message [some (.i32 9), some (.list []), some (.map [])]]),
            some (.map [])])])] :=
  (decode_append (Registry.reachable_tree {}) (Registry.distinctNumbers_tree {})
    (show (treeRegistry {}).messageType "Tree" = .ok treeType from rfl)
    (show encode (treeRegistry {}) treeType [some (.i32 7),
      some (.list [.message [some (.i32 1)]]),
      some (.map [(.string "a", .message [some (.i32 5)])])] = _ by cbv)
    (show encode (treeRegistry {}) treeType [none,
      some (.list [.message [some (.i32 2)]]),
      some (.map [(.string "a", .message [none, some (.list [.message [some (.i32 9)]])])])] = _
      by cbv)
    (by decide) (by decide) (by decide) (by decide)).trans (by cbv)

end DynProto.Binary
