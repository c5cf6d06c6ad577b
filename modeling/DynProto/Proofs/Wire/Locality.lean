import DynProto.Proofs.Wire.Reading
import DynProto.Wire.Content

/-!
# What follows has no say in what is read

A reader is `Local` if whatever it takes off the front it takes whatever follows: the octets behind
can neither change what was read nor how far. Every combinator of readers keeps the property and
every primitive of the wire format has it, also the readers that look beyond what they take, since a
block of elements is only accepted if its last element ends where the block does (`Local.packed`),
and the skipping of unknown fields with groups inside (`local_skip`).

So the octets that a reader takes are told apart from what follows by themselves: a front of them
that lacks the end is refused (`Local.exists_error_of_cut`).
-/

namespace DynProto.Wire

variable {bytes rest : Bytes}

/-! ## What is read, step by step -/

/-- So many octets are taken off the front if there are so many. -/
theorem takeBytes_eq_ok {fault : Fault} {n : Nat} {front : Bytes} :
    takeBytes fault n bytes = .ok (front, rest) ↔
      n ≤ bytes.length ∧ bytes.take n = front ∧ bytes.drop n = rest := by
  unfold takeBytes
  split_ifs with hle <;> simp [hle]

/-- Content is read if its length is, and if it is there. -/
theorem run_block_eq_ok {fault : Nat → Fault} {block : Bytes} :
    (Reader.block fault).run bytes = .ok (block, rest) ↔
      ∃ length content, Reader.varint.run bytes = .ok (length, content) ∧
        length ≤ content.length ∧ content.take length = block ∧ content.drop length = rest := by
  show readBlock fault bytes = .ok (block, rest) ↔ _
  unfold readBlock
  simp only [except_bind_eq_ok, takeBytes_eq_ok, Prod.exists]

namespace Reader

variable {ε ε' α β : Type}

/-- A checked reader reads what the reader reads and the check accepts. -/
theorem run_check_eq_ok {r : Reader ε α} {f : α → Except ε β} {b : β} :
    (r.check f).run bytes = .ok (b, rest) ↔ ∃ a, r.run bytes = .ok (a, rest) ∧ f a = .ok b := by
  constructor
  · intro h
    obtain ⟨⟨a, rest'⟩, hrun, h⟩ := except_bind_eq_ok.1 h
    obtain ⟨b', hb, h⟩ := except_bind_eq_ok.1 h
    cases h
    exact ⟨a, hrun, hb⟩
  · rintro ⟨a, hrun, hb⟩
    show (r.run bytes >>= fun p => f p.1 >>= fun b => .ok (b, p.2)) = _
    rw [hrun]
    show (f a >>= fun b => .ok (b, rest)) = _
    rw [hb]
    rfl

/-- A reader that is followed by a function reads what the reader reads. -/
theorem run_map_eq_ok {r : Reader ε α} {f : α → β} {b : β} :
    (r.map f).run bytes = .ok (b, rest) ↔ ∃ a, r.run bytes = .ok (a, rest) ∧ f a = b := by
  rw [map, run_check_eq_ok]
  simp only [Except.ok.injEq]

/-- A reader that is followed by a function fails where the reader fails. -/
theorem run_map_eq_error {r : Reader ε α} {f : α → β} {fault : ε} :
    (r.map f).run bytes = .error fault ↔ r.run bytes = .error fault := by
  show (r.run bytes >>= fun p => .ok (f p.1, p.2)) = _ ↔ _
  cases r.run bytes <;> simp [bind, Except.bind]

/-- A reader that tells its faults differently reads what it read before. -/
theorem run_mapError_eq_ok {r : Reader ε α} {f : ε → ε'} {a : α} :
    (r.mapError f).run bytes = .ok (a, rest) ↔ r.run bytes = .ok (a, rest) := by
  show (r.run bytes).mapError f = _ ↔ _
  cases r.run bytes <;> simp [Except.mapError]

/-! ## Local readers -/

/-- Whatever is read was taken off the front, and would have been whatever followed. -/
def Local (r : Reader ε α) : Prop :=
  ∀ bytes a rest, r.run bytes = .ok (a, rest) → ∃ front, bytes = front ++ rest ∧ r.Reads front a

variable {r : Reader ε α}

/-- What follows what was read may be followed by anything else. -/
theorem Local.run_append (h : r.Local) {a : α} (hrun : r.run bytes = .ok (a, rest))
    (more : Bytes) : r.run (bytes ++ more) = .ok (a, rest ++ more) := by
  obtain ⟨front, rfl, hfront⟩ := h _ _ _ hrun
  rw [List.append_assoc]
  exact hfront (rest ++ more)

/-- Octets that are read are refused where their end is cut off. -/
theorem Local.exists_error_of_cut (h : r.Local) {front cut : Bytes} {a : α}
    (hfront : r.Reads front a) (hcut : cut <+: front) (hne : cut ≠ front) :
    ∃ fault, r.run cut = .error fault := by
  rcases hrun : r.run cut with fault | ⟨b, rest⟩
  · exact ⟨fault, rfl⟩
  · obtain ⟨more, rfl⟩ := hcut
    -- what is missing would be left over when the whole is read
    have hall := hfront []
    rw [List.append_nil, h.run_append hrun more, Except.ok.injEq, Prod.mk.injEq,
      List.append_eq_nil_iff] at hall
    obtain ⟨_, _, rfl⟩ := hall
    exact absurd (List.append_nil cut).symm hne

/-- A reader that always fails takes nothing. -/
theorem local_fail (fault : ε) : (fail fault : Reader ε α).Local :=
  fun _ _ _ h => nomatch h

/-- A check looks at nothing but the result. -/
theorem Local.check (h : r.Local) (f : α → Except ε β) : (r.check f).Local := by
  intro bytes b rest hrun
  obtain ⟨a, hrun, hb⟩ := run_check_eq_ok.1 hrun
  obtain ⟨front, heq, hfront⟩ := h _ _ _ hrun
  exact ⟨front, heq, hfront.check hb⟩

/-- Neither does a function. -/
theorem Local.map (h : r.Local) (f : α → β) : (r.map f).Local :=
  h.check _

/-- One reader after the other takes off the front what both take. -/
theorem Local.andThen (h : r.Local) {next : α → Reader ε β} (hnext : ∀ a, (next a).Local) :
    (r.andThen next).Local := by
  intro bytes b rest hrun
  obtain ⟨⟨a, middle⟩, hfirst, hsecond⟩ := except_bind_eq_ok.1 hrun
  obtain ⟨front, rfl, hfront⟩ := h _ _ _ hfirst
  obtain ⟨back, rfl, hback⟩ := hnext a _ _ _ hsecond
  exact ⟨front ++ back, (List.append_assoc ..).symm, hfront.andThen hback⟩

/-- Elements are taken off the front one after the other. -/
theorem Local.exists_contents (h : r.Local) {left : Nat} {as : List α}
    (hrun : r.untilLeft left bytes = .ok (as, rest)) :
    ∃ contents : List Bytes, bytes = contents.flatten ++ rest ∧
      List.Forall₂ r.Reads contents as := by
  induction hn : bytes.length using Nat.strongRecOn generalizing bytes as with
  | ind n ih =>
    unfold untilLeft at hrun
    split at hrun
    · cases hrun
      exact ⟨[], rfl, .nil⟩
    · split at hrun
      · cases hrun
      · rename_i a middle hfirst
        obtain ⟨⟨more, rest'⟩, hmore, hrun⟩ := except_bind_eq_ok.1 hrun
        cases hrun
        have hlt := r.shorter hfirst
        obtain ⟨front, rfl, hfront⟩ := h _ _ _ hfirst
        obtain ⟨contents, rfl, hcontents⟩ := ih middle.length (by omega) hmore rfl
        refine ⟨front :: contents, ?_, .cons hfront hcontents⟩
        rw [List.flatten_cons, List.append_assoc]

end Reader

/-! ## Numbers and contents -/

/-- A number is taken off the front. -/
theorem Reader.local_varint : Reader.varint.Local := by
  suffices h : ∀ left bytes n rest, readVarint left bytes = .ok (n, rest) →
      ∃ front, bytes = front ++ rest ∧ ∀ more, readVarint left (front ++ more) = .ok (n, more) from
    h 10
  intro left
  induction left with
  | zero =>
    intro bytes n rest h
    simp [readVarint] at h
  | succ left ih =>
    intro bytes n rest h
    rcases bytes with _ | ⟨b, bytes⟩
    · simp [readVarint] at h
    rw [readVarint] at h
    by_cases hlast : b < 128
    · rw [if_pos hlast] at h
      split_ifs at h with hwide
      cases h
      refine ⟨[b], rfl, fun more => ?_⟩
      rw [List.singleton_append, readVarint, if_pos hlast, if_neg hwide]
    · rw [if_neg hlast] at h
      obtain ⟨⟨high, middle⟩, hhigh, h⟩ := except_bind_eq_ok.1 h
      cases h
      obtain ⟨front, rfl, hfront⟩ := ih _ _ _ hhigh
      refine ⟨b :: front, rfl, fun more => ?_⟩
      rw [List.cons_append, readVarint, if_neg hlast, hfront more]
      rfl

/-- A key is taken off the front. -/
theorem Reader.local_key : Reader.key.Local :=
  Reader.local_varint.check _

/-- A number of fixed width is taken off the front. -/
theorem Reader.local_fixed (width : Nat) : (Reader.fixed width).Local := by
  intro bytes n rest h
  obtain ⟨⟨front, rest'⟩, htake, h⟩ := except_bind_eq_ok.1 h
  cases h
  have hlength := (length_of_takeBytes htake).1
  obtain ⟨_, rfl, rfl⟩ := takeBytes_eq_ok.1 htake
  refine ⟨bytes.take (width + 1), (List.take_append_drop ..).symm, fun more => ?_⟩
  show (takeBytes .underflow (width + 1) _ >>= fun p => .ok (ofLittleEndian p.1, p.2)) = _
  have hback := takeBytes_append .underflow (bytes.take (width + 1)) more
  rw [hlength] at hback
  rw [hback]
  rfl

/-- Content with its length in front is taken off the front. -/
theorem Reader.local_block (fault : Nat → Fault) : (Reader.block fault).Local := by
  intro bytes block rest h
  obtain ⟨length, content, hlength, hle, rfl, rfl⟩ := run_block_eq_ok.1 h
  obtain ⟨front, rfl, hfront⟩ := Reader.local_varint _ _ _ hlength
  rw [← List.length_take_of_le hle] at hfront
  refine ⟨front ++ content.take length, ?_, hfront.block fault⟩
  rw [List.append_assoc, List.take_append_drop]

/-- A text is taken off the front. -/
theorem Reader.local_text : Reader.text.Local :=
  (Reader.local_block _).check _

/-- A block of elements is taken off the front. Its elements are read from all the octets that
follow, but the last one ends where the block does. -/
theorem Reader.Local.packed {ε α : Type} {r : Reader ε α} (h : r.Local) (lift : Fault → ε) :
    (Reader.packed lift r).Local := by
  intro bytes as rest hrun
  obtain ⟨⟨length, content⟩, hlength, hblock⟩ := except_bind_eq_ok.1 hrun
  obtain ⟨front, rfl, hfront⟩ := Reader.local_varint _ _ _ (Reader.run_mapError_eq_ok.1 hlength)
  simp only at hblock
  split_ifs at hblock with hlt
  obtain ⟨⟨elements, rest'⟩, helements, hend⟩ := except_bind_eq_ok.1 hblock
  simp only at hend
  split_ifs at hend with hleft
  cases hend
  obtain ⟨contents, rfl, hcontents⟩ := h.exists_contents helements
  obtain rfl : contents.flatten.length = length := by
    simp only [List.length_append] at hleft hlt
    omega
  exact ⟨front ++ contents.flatten, (List.append_assoc ..).symm, hfront.packed lift hcontents⟩

/-! ## Unknown fields -/

/-- What is skipped is taken off the front. -/
theorem exists_front_of_skipContent {wireType : WireType}
    (h : skipContent wireType bytes = .ok rest) :
    ∃ front, bytes = front ++ rest ∧ ∀ more, skipContent wireType (front ++ more) = .ok more := by
  have hsnd : ∀ {α : Type} {r : Reader Fault α}, r.Local →
      (r.run bytes).map Prod.snd = .ok rest →
      ∃ front, bytes = front ++ rest ∧ ∀ more, (r.run (front ++ more)).map Prod.snd = .ok more := by
    intro α r hlocal hrest
    rcases hrun : r.run bytes with fault | ⟨a, rest'⟩ <;> rw [hrun] at hrest <;> cases hrest
    obtain ⟨front, heq, hfront⟩ := hlocal _ _ _ hrun
    refine ⟨front, heq, fun more => ?_⟩
    rw [hfront more]
    rfl
  cases wireType with
  | varint => exact hsnd Reader.local_varint h
  | fixed64 | fixed32 => exact hsnd (Reader.local_fixed _) h
  | delimited => exact hsnd (Reader.local_block _) h
  | startGroup | endGroup => cases h

/-- Inside a group stands the end of the group, the start of another one, or a field that is
neither. -/
theorem skipGroups_cons (depth group : Nat) (outer : List Nat) (bytes : Bytes) :
    skipGroups depth (group :: outer) bytes = Reader.key.run bytes >>= fun p =>
      if p.1.wireType = .endGroup then
        if p.1.number = group then skipGroups depth outer p.2 else .error .endGroup
      else if depth ≤ (group :: outer).length then .error .tooDeep
      else if p.1.wireType = .startGroup then
        skipGroups depth (p.1.number :: group :: outer) p.2
      else skipContent p.1.wireType p.2 >>= skipGroups depth (group :: outer) := by
  rw [skipGroups]
  split
  · rename_i hkey
    rw [hkey]
    rfl
  · rename_i key rest hkey
    rw [hkey]
    show _ = if key.wireType = .endGroup then _ else _
    split_ifs
    · rfl
    · rfl
    · rfl
    · rfl
    · split <;> rename_i hskip <;> rw [hskip] <;> rfl

/-- What is skipped up to the end of open groups is taken off the front. -/
theorem exists_front_of_skipGroups {depth : Nat} {groups : List Nat}
    (h : skipGroups depth groups bytes = .ok rest) :
    ∃ front, bytes = front ++ rest ∧
      ∀ more, skipGroups depth groups (front ++ more) = .ok more := by
  induction hn : bytes.length using Nat.strongRecOn generalizing bytes groups with
  | ind n ih =>
    rcases groups with _ | ⟨group, outer⟩
    · rw [skipGroups] at h
      cases h
      exact ⟨[], rfl, fun more => by rw [skipGroups]; rfl⟩
    rw [skipGroups_cons] at h
    obtain ⟨⟨key, middle⟩, hkey, hmiddle⟩ := except_bind_eq_ok.1 h
    have hlt := Reader.key.shorter hkey
    obtain ⟨front, rfl, hfront⟩ := Reader.local_key _ _ _ hkey
    -- the key decides in which state the rest is skipped, whatever follows
    have hcons : ∀ back, (∀ more, skipGroups depth (group :: outer) (front ++ (back ++ more))
          = .ok more) →
        ∃ whole, front ++ (back ++ rest) = whole ++ rest ∧
          ∀ more, skipGroups depth (group :: outer) (whole ++ more) = .ok more := by
      intro back hback
      refine ⟨front ++ back, (List.append_assoc ..).symm, fun more => ?_⟩
      rw [List.append_assoc]
      exact hback more
    simp only at hmiddle
    split_ifs at hmiddle with hend hnumber hdeep hstart
    · obtain ⟨back, rfl, hback⟩ := ih middle.length (by omega) hmiddle rfl
      refine hcons back fun more => ?_
      rw [skipGroups_cons, hfront]
      show (if _ then _ else _) = _
      rw [if_pos hend, if_pos hnumber, hback more]
    · obtain ⟨back, rfl, hback⟩ := ih middle.length (by omega) hmiddle rfl
      refine hcons back fun more => ?_
      rw [skipGroups_cons, hfront]
      show (if _ then _ else _) = _
      rw [if_neg hend, if_neg hdeep, if_pos hstart, hback more]
    · obtain ⟨content, hskip, hcontent⟩ := except_bind_eq_ok.1 hmiddle
      have hlt' := length_of_skipContent hskip
      obtain ⟨skipped, rfl, hskipped⟩ := exists_front_of_skipContent hskip
      obtain ⟨back, rfl, hback⟩ := ih content.length (by omega) hcontent rfl
      rw [← List.append_assoc skipped]
      refine hcons (skipped ++ back) fun more => ?_
      rw [skipGroups_cons, hfront]
      show (if _ then _ else _) = _
      rw [if_neg hend, if_neg hdeep, if_neg hstart, List.append_assoc, hskipped]
      exact hback more

/-- An unknown field is taken off the front. -/
theorem Reader.local_skip (depth : Nat) (key : Key) : (Reader.skip depth key).Local := by
  intro bytes a rest h
  have hskip : skipField depth key bytes = .ok rest := by
    change (skipField depth key bytes).map _ = _ at h
    rcases hskip : skipField depth key bytes with fault | rest' <;> rw [hskip] at h <;> cases h
    rfl
  suffices hfront : ∃ front, bytes = front ++ rest ∧
      ∀ more, skipField depth key (front ++ more) = .ok more by
    obtain ⟨front, heq, hfront⟩ := hfront
    refine ⟨front, heq, fun more => ?_⟩
    show (skipField depth key (front ++ more)).map _ = _
    rw [hfront more]
    rfl
  unfold skipField at hskip ⊢
  split_ifs at hskip ⊢ with hdepth hgroup
  · exact exists_front_of_skipGroups hskip
  · exact exists_front_of_skipContent hskip

end DynProto.Wire

namespace DynProto.Scalar

open Wire

/-- A value of a kind is taken off the front. -/
theorem local_reader (kind : Scalar) : kind.reader.Local := by
  cases kind
  case double | fixed64 | sfixed64 => exact (Reader.local_fixed 7).map _
  case float | fixed32 | sfixed32 => exact (Reader.local_fixed 3).map _
  case string => exact Reader.local_text.map _
  case bytes => exact (Reader.local_block _).map _
  case int32 => exact (Reader.local_varint.map _).map _
  all_goals exact Reader.local_varint.map _

end DynProto.Scalar
