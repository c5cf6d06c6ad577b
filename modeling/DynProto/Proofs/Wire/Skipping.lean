import DynProto.Proofs.Wire.Locality

/-!
# What is read can be skipped

The content of a field whose number is known is read by the kind of the field, that of any other is
skipped by its wire type alone. Both end at the same octet: `Reader.Skips` says so of a reader and a
wire type, every reader of a scalar kind has the property (`Scalar.skips_reader`), and a block of
elements has it because each element leaves a suffix of the octets it is read from.
-/

namespace DynProto.Wire

variable {wireType : WireType} {bytes rest : Bytes}

namespace Reader

variable {ε α β : Type}

/-! ## Readers that end where skipping ends -/

/-- Whatever the reader takes off the front, skipping content with the wire type takes as well. -/
def Skips (r : Reader Fault α) (wireType : WireType) : Prop :=
  ∀ bytes a rest, r.run bytes = .ok (a, rest) → skipContent wireType bytes = .ok rest

variable {r : Reader Fault α}

/-- A check takes nothing. -/
theorem Skips.check (h : r.Skips wireType) (f : α → Except Fault β) :
    (r.check f).Skips wireType := by
  intro bytes b rest hrun
  obtain ⟨a, hrun, _⟩ := run_check_eq_ok.1 hrun
  exact h bytes a rest hrun

/-- A function takes nothing. -/
theorem Skips.map (h : r.Skips wireType) (f : α → β) : (r.map f).Skips wireType :=
  h.check _

/-- A reader that always fails takes nothing. -/
theorem skips_fail (fault : Fault) : (fail fault : Reader Fault α).Skips wireType :=
  fun _ _ _ h => nomatch h

/-- A number. -/
theorem skips_varint : varint.Skips .varint := by
  intro bytes n rest hrun
  rw [skipContent, hrun]
  rfl

/-- A number in eight octets. -/
theorem skips_fixed64 : (fixed 7).Skips .fixed64 := by
  intro bytes n rest hrun
  rw [skipContent, hrun]
  rfl

/-- A number in four octets. -/
theorem skips_fixed32 : (fixed 3).Skips .fixed32 := by
  intro bytes n rest hrun
  rw [skipContent, hrun]
  rfl

/-- Content with its length in front, whatever the fault is when it is cut. -/
theorem skips_block (fault : Nat → Fault) : (block fault).Skips .delimited := by
  intro bytes content rest hrun
  have hread : delimited.run bytes = .ok (content, rest) := by
    rw [delimited]
    exact run_block_eq_ok.2 (run_block_eq_ok.1 hrun)
  rw [skipContent, hread]
  rfl

/-- A text. -/
theorem skips_text : text.Skips .delimited :=
  (skips_block _).check _

/-- Elements that are skipped one by one leave a suffix of the octets. -/
theorem Skips.suffix_of_untilLeft (h : r.Skips wireType) {left : Nat} {as : List α}
    (hrun : r.untilLeft left bytes = .ok (as, rest)) : rest <:+ bytes := by
  induction hn : bytes.length using Nat.strongRecOn generalizing bytes as with
  | ind n ih =>
    unfold untilLeft at hrun
    split at hrun
    · cases hrun
      exact List.suffix_refl rest
    · split at hrun
      · cases hrun
      · rename_i a rest' hfirst
        obtain ⟨⟨more, rest''⟩, hmore, hrun⟩ := except_bind_eq_ok.1 hrun
        cases hrun
        have hlt := r.shorter hfirst
        obtain ⟨front, rfl, _⟩ := exists_front_of_skipContent (h _ _ _ hfirst)
        exact (ih rest'.length (by omega) hmore rfl).trans (List.suffix_append front rest')

/-- A block of elements: it ends where its length says, so skipping ends there as well. -/
theorem Skips.packed (h : r.Skips wireType) : (packed id r).Skips .delimited := by
  intro bytes as rest hrun
  obtain ⟨⟨length, content⟩, hlength, hrun⟩ := except_bind_eq_ok.1 hrun
  have hvarint := run_mapError_eq_ok.1 hlength
  simp only at hrun
  split_ifs at hrun with hlt
  obtain ⟨⟨elements, rest'⟩, helements, hrun⟩ := except_bind_eq_ok.1 hrun
  simp only at hrun
  split_ifs at hrun with hleft
  cases hrun
  have hdrop : rest = content.drop length := by
    have hsuffix := List.suffix_iff_eq_drop.1 (h.suffix_of_untilLeft helements)
    rwa [hleft, Nat.sub_sub_self (Nat.le_of_not_lt hlt)] at hsuffix
  exact skips_block (fun _ => .underflow) bytes _ rest
    (run_block_eq_ok.2 ⟨length, content, hvarint, Nat.le_of_not_lt hlt, rfl, hdrop.symm⟩)

end Reader

/-- Content that is skipped by its wire type is skipped as that of an unknown field. -/
theorem run_skip {key : Key} (h : skipContent key.wireType bytes = .ok rest) :
    (Reader.skip skipDepth key).run bytes = .ok ((), rest) := by
  have hgroup : key.wireType ≠ .startGroup := by
    intro hgroup
    rw [hgroup] at h
    cases h
  show (skipField skipDepth key bytes).map _ = _
  rw [skipField, if_neg (by decide), if_neg hgroup, h]
  rfl

end DynProto.Wire

namespace DynProto.Scalar

open Wire

/-- A value of a kind ends where skipping by the wire type of the kind ends. -/
theorem skips_reader (kind : Scalar) : kind.reader.Skips kind.wireType := by
  cases kind
  case double | fixed64 | sfixed64 => exact Reader.skips_fixed64.map _
  case float | fixed32 | sfixed32 => exact Reader.skips_fixed32.map _
  case string => exact Reader.skips_text.map _
  case bytes => exact (Reader.skips_block _).map _
  case int32 => exact (Reader.skips_varint.map _).map _
  all_goals exact Reader.skips_varint.map _

end DynProto.Scalar
