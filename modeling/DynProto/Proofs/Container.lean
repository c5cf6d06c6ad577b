import DynProto.Container
import DynProto.Proofs.Wire.Reading

/-!
# Taking containers apart

A container is taken apart into the index block and the payload that it was built from, whatever
they are (`parse_of_frame`); a buffer that does not open with the tag is a payload as a whole
(`parse_of_not_magic`).

Nothing else is ever taken apart: a buffer that opens with the tag is its header and what is behind
it (`exists_header`), and the header has but one spelling, since four octets and the number that
they stand for determine each other. So what a buffer is taken apart into builds this very buffer,
and the buffers that are refused are those that end before the header or the index block does
(`parse_frame`).
-/

namespace DynProto.Container

open Wire

variable {index payload buffer : Bytes}

/-- A container is built if the length of the index block fits 32 bits. -/
theorem frame_eq_ok_iff : frame index payload = .ok buffer ↔
    index.length < 2 ^ 32 ∧ magic ++ littleEndian 4 index.length ++ index ++ payload = buffer := by
  unfold frame
  split_ifs with hlength
  · simpa using fun _ => hlength
  · simpa using fun h => absurd h hlength

/-- A buffer that does not open with the tag is a payload. -/
theorem parse_of_not_magic (h : ¬ magic <+: buffer) : parse buffer = .ok ⟨none, buffer⟩ := by
  unfold parse
  rw [if_neg (by rwa [List.isPrefixOf_iff_prefix])]

/-- A buffer that opens with a tag and a length that the rest has is taken apart there. -/
theorem parse_of_header {length rest : Bytes} (hlength : length.length = 4)
    (hindex : ofLittleEndian length ≤ rest.length) :
    parse (magic ++ (length ++ rest)) = .ok
      ⟨some (rest.take (ofLittleEndian length)), rest.drop (ofLittleEndian length)⟩ := by
  have hmagic : magic.length = 8 := rfl
  have hprefix : magic.isPrefixOf (magic ++ (length ++ rest)) = true :=
    List.isPrefixOf_iff_prefix.2 (List.prefix_append _ _)
  have hfront : ((magic ++ (length ++ rest)).drop 8).take 4 = length := by
    rw [List.drop_left' hmagic, List.take_left' hlength]
  have hback : (magic ++ (length ++ rest)).drop headerLength = rest := by
    rw [← List.append_assoc, List.drop_left' (by rw [List.length_append, hmagic, hlength]; rfl)]
  have hsize : ¬ (magic ++ (length ++ rest)).length < headerLength := by
    simp only [List.length_append, hmagic, hlength, headerLength]
    omega
  unfold parse
  rw [if_pos hprefix, if_neg hsize]
  simp only [hfront, hback]
  rw [if_neg (Nat.not_lt.2 hindex)]

/-- A container is taken apart into what it was built from. -/
theorem parse_of_frame (h : frame index payload = .ok buffer) :
    parse buffer = .ok ⟨some index, payload⟩ := by
  obtain ⟨hlength, rfl⟩ := frame_eq_ok_iff.1 h
  have hindex : ofLittleEndian (littleEndian 4 index.length) = index.length :=
    ofLittleEndian_littleEndian 4 hlength
  rw [List.append_assoc, List.append_assoc,
    parse_of_header (length_littleEndian 4 _) (by simp [hindex]), hindex, List.take_left,
    List.drop_left]

/-! ## Taking apart and building -/

/-- The length that the header of a container states for the index block. -/
def statedLength (buffer : Bytes) : Nat :=
  ofLittleEndian ((buffer.drop 8).take 4)

/-- The length that stands behind the tag is the stated one. -/
theorem statedLength_header {length : Bytes} (hlength : length.length = 4) (rest : Bytes) :
    statedLength (magic ++ (length ++ rest)) = ofLittleEndian length := by
  have hmagic : magic.length = 8 := rfl
  rw [statedLength, List.drop_left' hmagic, List.take_left' hlength]

/-- A buffer that opens with the tag and does not end in the header is a header and a rest. -/
theorem exists_header (hmagic : magic <+: buffer) (hsize : headerLength ≤ buffer.length) :
    ∃ length rest : Bytes, length.length = 4 ∧ buffer = magic ++ (length ++ rest) := by
  obtain ⟨behind, rfl⟩ := hmagic
  have hbehind : 4 ≤ behind.length := by
    have : magic.length = 8 := rfl
    simp only [headerLength, List.length_append] at hsize
    omega
  refine ⟨behind.take 4, behind.drop 4, ?_, ?_⟩
  · rw [List.length_take, Nat.min_eq_left hbehind]
  · rw [List.take_append_drop]

/-- A buffer that ends in the header is refused. -/
theorem parse_of_short (hmagic : magic <+: buffer) (hsize : buffer.length < headerLength) :
    parse buffer = .error (.shortHeader buffer.length) := by
  unfold parse
  rw [if_pos (List.isPrefixOf_iff_prefix.2 hmagic), if_pos hsize]

/-- A buffer that ends in the index block is refused. -/
theorem parse_of_overrun (hmagic : magic <+: buffer) (hsize : headerLength ≤ buffer.length)
    (hindex : buffer.length < headerLength + statedLength buffer) :
    parse buffer = .error (.indexOverrun (statedLength buffer) buffer.length) := by
  have hrest : (buffer.drop headerLength).length < ofLittleEndian ((buffer.drop 8).take 4) := by
    rw [List.length_drop]
    unfold statedLength at hindex
    omega
  unfold parse
  rw [if_pos (List.isPrefixOf_iff_prefix.2 hmagic), if_neg (Nat.not_lt.2 hsize)]
  exact if_pos hrest

/-- Every other buffer that opens with the tag was built from what it is taken apart into. -/
theorem exists_frame (hmagic : magic <+: buffer)
    (hindex : headerLength + statedLength buffer ≤ buffer.length) :
    ∃ index payload, frame index payload = .ok buffer ∧
      parse buffer = .ok ⟨some index, payload⟩ := by
  obtain ⟨length, rest, hlength, rfl⟩ :=
    exists_header hmagic (Nat.le_trans (Nat.le_add_right _ _) hindex)
  have hrest : ofLittleEndian length ≤ rest.length := by
    rw [statedLength_header hlength] at hindex
    simp only [headerLength, List.length_append, hlength, show magic.length = 8 from rfl] at hindex
    omega
  have hsize : (rest.take (ofLittleEndian length)).length = ofLittleEndian length := by
    rw [List.length_take, Nat.min_eq_left hrest]
  refine ⟨_, _, frame_eq_ok_iff.2 ⟨?_, ?_⟩, parse_of_header hlength hrest⟩
  · have hlt := ofLittleEndian_lt length
    rw [hlength] at hlt
    rwa [hsize]
  · have hspelled := littleEndian_ofLittleEndian length
    rw [hlength] at hspelled
    rw [hsize, hspelled, List.append_assoc, List.append_assoc, List.take_append_drop]

/-- What opens with the tag ends too early and is refused, or is a container. -/
theorem parse_cases (hmagic : magic <+: buffer) :
    ((buffer.length < headerLength ∨ buffer.length < headerLength + statedLength buffer) ∧
      ∃ fault, parse buffer = .error fault) ∨
    (headerLength + statedLength buffer ≤ buffer.length ∧
      ∃ index payload, frame index payload = .ok buffer ∧
        parse buffer = .ok ⟨some index, payload⟩) := by
  rcases Nat.lt_or_ge buffer.length headerLength with hshort | hsize
  · exact .inl ⟨.inl hshort, _, parse_of_short hmagic hshort⟩
  · rcases Nat.lt_or_ge buffer.length (headerLength + statedLength buffer) with hover | hindex
    · exact .inl ⟨.inr hover, _, parse_of_overrun hmagic hsize hover⟩
    · exact .inr ⟨hindex, exists_frame hmagic hindex⟩

/-- A buffer is refused exactly if it opens with the tag and ends before the header or the index
block does. -/
theorem exists_parse_eq_error_iff : (∃ fault, parse buffer = .error fault) ↔ magic <+: buffer ∧
    (buffer.length < headerLength ∨ buffer.length < headerLength + statedLength buffer) := by
  constructor
  · rintro ⟨fault, hfault⟩
    by_cases hmagic : magic <+: buffer
    · rcases parse_cases hmagic with ⟨hends, _⟩ | ⟨_, index, payload, _, hparse⟩
      · exact ⟨hmagic, hends⟩
      · rw [hparse] at hfault
        cases hfault
    · rw [parse_of_not_magic hmagic] at hfault
      cases hfault
  · rintro ⟨hmagic, hends⟩
    rcases parse_cases hmagic with ⟨_, hfault⟩ | ⟨hindex, _⟩
    · exact hfault
    · omega

/-- A buffer is taken apart into an index block and a payload exactly if it is built from them. -/
theorem parse_eq_framed_iff :
    parse buffer = .ok ⟨some index, payload⟩ ↔ frame index payload = .ok buffer := by
  constructor
  · intro hparse
    by_cases hmagic : magic <+: buffer
    · rcases parse_cases hmagic with ⟨_, fault, hfault⟩ | ⟨_, index', payload', hframe, hparse'⟩
      · rw [hparse] at hfault
        cases hfault
      · rw [hparse] at hparse'
        cases hparse'
        exact hframe
    · rw [parse_of_not_magic hmagic] at hparse
      cases hparse
  · exact parse_of_frame

/-- A buffer is a payload as a whole exactly if it does not open with the tag. -/
theorem parse_eq_bare_iff :
    parse buffer = .ok ⟨none, payload⟩ ↔ ¬ magic <+: buffer ∧ payload = buffer := by
  constructor
  · intro hparse
    by_cases hmagic : magic <+: buffer
    · rcases parse_cases hmagic with ⟨_, fault, hfault⟩ | ⟨_, index, payload', _, hframed⟩
      · rw [hparse] at hfault
        cases hfault
      · rw [hparse] at hframed
        cases hframed
    · rw [parse_of_not_magic hmagic] at hparse
      cases hparse
      exact ⟨hmagic, rfl⟩
  · rintro ⟨hmagic, rfl⟩
    exact parse_of_not_magic hmagic

/-- An index block and a payload come back out of their container exactly if the length of the index
block fits 32 bits. -/
theorem exists_frame_parse_iff :
    (∃ framed, frame index payload = .ok framed ∧ parse framed = .ok ⟨some index, payload⟩) ↔
      index.length < 2 ^ 32 := by
  constructor
  · rintro ⟨framed, hframed, _⟩
    exact (frame_eq_ok_iff.1 hframed).1
  · intro hlength
    have hframed : frame index payload
        = .ok (magic ++ littleEndian 4 index.length ++ index ++ payload) :=
      frame_eq_ok_iff.2 ⟨hlength, rfl⟩
    exact ⟨_, hframed, parse_of_frame hframed⟩

/-- Taking containers apart and building them undo each other, for all buffers, index blocks and
payloads, also for a payload that opens with the tag itself: what is refused is what ends too early,
what is taken apart is what was built, and what was built comes back. -/
theorem parse_frame (buffer index payload : Bytes) :
    ((∃ fault, parse buffer = .error fault) ↔ magic <+: buffer ∧
      (buffer.length < headerLength ∨ buffer.length < headerLength + statedLength buffer)) ∧
    (parse buffer = .ok ⟨some index, payload⟩ ↔ frame index payload = .ok buffer) ∧
    (parse buffer = .ok ⟨none, payload⟩ ↔ ¬ magic <+: buffer ∧ payload = buffer) ∧
    ((∃ framed, frame index payload = .ok framed ∧ parse framed = .ok ⟨some index, payload⟩) ↔
      index.length < 2 ^ 32) :=
  ⟨exists_parse_eq_error_iff, parse_eq_framed_iff, parse_eq_bare_iff, exists_frame_parse_iff⟩

end DynProto.Container
