import DynProto.Wire.Field
import Mathlib

/-!
# What readers read back

`Reader.Reads r bytes a` says that the reader takes exactly these octets off the front, whatever
follows them, and gives `a`. Every combinator of readers keeps the relation, and every primitive of
the wire format reads what its writer wrote: varints, keys, contents of fixed width, contents with
their length in front, texts and packed blocks (`reads_varint` to `reads_packed`).

A length on the wire is a varint of 64 bits, so a block is read back only if it is shorter than
`lengthBound`. Sequences of octets in memory are; lists here may be longer, and the statements say
so.

In the other direction, `Reader.Gives` says what is known of the results of a reader, whatever the
octets are. And since a writer's octets are read in one way only, octets begin with at most one
varint, key or block (`varint_append_inj`, `Key.bytes_append_inj`, `delimited_append_inj`).
-/

namespace DynProto.Wire

/-- The lengths that a varint can state are those below. -/
def lengthBound : Nat := 2 ^ 64

namespace Reader

variable {ε ε' α β : Type}

/-- The reader takes exactly these octets off the front, whatever follows, and gives `a`. -/
def Reads (r : Reader ε α) (bytes : Bytes) (a : α) : Prop :=
  ∀ rest, r.run (bytes ++ rest) = .ok (a, rest)

/-! ## Combinators -/

/-- Something is taken, so there is something to take. -/
theorem Reads.ne_nil {r : Reader ε α} {bytes : Bytes} {a : α} (h : r.Reads bytes a) :
    bytes ≠ [] := by
  rintro rfl
  have hlt := r.shorter (h [])
  simp at hlt

/-- A result that a check accepts. -/
theorem Reads.check {r : Reader ε α} {f : α → Except ε β} {bytes : Bytes} {a : α} {b : β}
    (h : r.Reads bytes a) (hf : f a = .ok b) : (r.check f).Reads bytes b := by
  intro rest
  show (r.run (bytes ++ rest) >>= fun p => f p.1 >>= fun b => .ok (b, p.2)) = _
  rw [h rest]
  show (f a >>= fun b => .ok (b, rest)) = _
  rw [hf]
  rfl

/-- A result that a function changes. -/
theorem Reads.map {r : Reader ε α} {f : α → β} {bytes : Bytes} {a : α} {b : β}
    (h : r.Reads bytes a) (hf : f a = b) : (r.map f).Reads bytes b :=
  h.check (congrArg Except.ok hf)

/-- Faults are told differently; what is read stays. -/
theorem Reads.mapError {r : Reader ε α} {bytes : Bytes} {a : α} (f : ε → ε')
    (h : r.Reads bytes a) : (r.mapError f).Reads bytes a := by
  intro rest
  show (r.run (bytes ++ rest)).mapError f = _
  rw [h rest]
  rfl

/-- One reader after the other. -/
theorem Reads.andThen {r : Reader ε α} {next : α → Reader ε β} {front back : Bytes} {a : α} {b : β}
    (h : r.Reads front a) (hnext : (next a).Reads back b) :
    (r.andThen next).Reads (front ++ back) b := by
  intro rest
  show (r.run (front ++ back ++ rest) >>= fun p => (next p.1).run p.2) = _
  rw [List.append_assoc, h (back ++ rest)]
  exact hnext rest

end Reader

/-! ## Varints and keys -/

/-- A number below `2 ^ (7 * left + 1)` is read back from at most `left + 1` octets. -/
theorem readVarint_varint (left : Nat) {n : Nat} (h : n < 2 ^ (7 * left + 1)) (rest : Bytes) :
    readVarint (left + 1) (varint n ++ rest) = .ok (n, rest) := by
  induction left generalizing n with
  | zero =>
    have hn : n < 128 := by omega
    have hb : n.toUInt8.toNat = n := by simp; omega
    have hle : ¬ 1 < n.toUInt8 := by
      rw [UInt8.lt_iff_toNat_lt, hb]
      simp only [UInt8.reduceToNat]
      omega
    have hlt : n.toUInt8 < 128 := by
      rw [UInt8.lt_iff_toNat_lt, hb]
      exact hn
    unfold varint
    rw [if_pos hn]
    simp [readVarint, hlt, hle, hb]
  | succ left ih =>
    unfold varint
    split
    · rename_i hn
      have hb : n.toUInt8.toNat = n := by simp; omega
      have hlt : n.toUInt8 < 128 := by
        rw [UInt8.lt_iff_toNat_lt, hb]
        exact hn
      simp [readVarint, hlt, hb]
    · rename_i hn
      have hb : (n % 128 + 128).toUInt8.toNat = n % 128 + 128 := by simp; omega
      have hlt : ¬ (n % 128 + 128).toUInt8 < 128 := by
        rw [UInt8.lt_iff_toNat_lt, hb]
        simp
      have hhigh : n / 128 < 2 ^ (7 * left + 1) := by
        rw [Nat.div_lt_iff_lt_mul (by decide)]
        have hpow : 2 ^ (7 * (left + 1) + 1) = 2 ^ (7 * left + 1) * 128 :=
          Nat.pow_add 2 (7 * left + 1) 7
        rwa [← hpow]
      rw [List.cons_append, readVarint, if_neg hlt, ih hhigh]
      show Except.ok ((n % 128 + 128).toUInt8.toNat - 128 + 128 * (n / 128), rest) = _
      rw [hb, show n % 128 + 128 - 128 + 128 * (n / 128) = n by omega]

/-- Octets begin with one varint at most. -/
theorem varint_append_inj {m n : Nat} {rest rest' : Bytes}
    (h : varint m ++ rest = varint n ++ rest') : m = n ∧ rest = rest' := by
  have hroom : max m n < 2 ^ (7 * max m n + 1) :=
    Nat.lt_two_pow_self.trans_le (Nat.pow_le_pow_right (by decide) (by omega))
  have hread := readVarint_varint (max m n) (Nat.lt_of_le_of_lt (le_max_left m n) hroom) rest
  rw [h, readVarint_varint (max m n) (Nat.lt_of_le_of_lt (le_max_right m n) hroom)] at hread
  cases hread
  exact ⟨rfl, rfl⟩

/-- Octets begin with one key at most. -/
theorem Key.bytes_append_inj {key key' : Key} {rest rest' : Bytes}
    (h : key.bytes ++ rest = key'.bytes ++ rest') : key = key' ∧ rest = rest' := by
  obtain ⟨number, wireType⟩ := key
  obtain ⟨number', wireType'⟩ := key'
  obtain ⟨hkey, hrest⟩ := varint_append_inj h
  simp only at hkey
  have hcode : ∀ t : WireType, t.code < 8 := by
    intro t
    cases t <;> decide
  have hlt := hcode wireType
  have hlt' := hcode wireType'
  have hwire : wireType = wireType' := by
    have heq := WireType.ofCode?_code wireType
    rw [show wireType.code = wireType'.code by omega, WireType.ofCode?_code] at heq
    exact (Option.some.inj heq).symm
  subst hwire
  exact ⟨by rw [show number = number' by omega], hrest⟩

/-- A number of 64 bits is read back. -/
theorem reads_varint {n : Nat} (h : n < lengthBound) : Reader.varint.Reads (varint n) n :=
  fun rest => readVarint_varint 9 h rest

/-- Field numbers below leave room for the wire type in a key of 32 bits. -/
def keyBound : Nat := 2 ^ 29

/-- A key is read back if its field number is one. -/
theorem reads_key {key : Key} (hpos : 0 < key.number) (hlt : key.number < keyBound) :
    Reader.key.Reads key.bytes key := by
  have hcode : key.wireType.code < 8 := by
    cases key.wireType <;> decide
  have hbound : 8 * key.number + key.wireType.code < UInt32.size := by
    have : UInt32.size = 8 * keyBound := rfl
    omega
  have hmod : (8 * key.number + key.wireType.code) % 8 = key.wireType.code := by omega
  have hdiv : (8 * key.number + key.wireType.code) / 8 = key.number := by omega
  refine (reads_varint (Nat.lt_trans hbound (by decide))).check ?_
  rw [Key.ofNat?, if_neg (by omega), hmod, WireType.ofCode?_code, hdiv]
  exact if_neg (by omega)

/-! ## Contents -/

/-- Octets are taken off the front. -/
theorem takeBytes_append (fault : Fault) (front rest : Bytes) :
    takeBytes fault front.length (front ++ rest) = .ok (front, rest) := by
  unfold takeBytes
  rw [if_pos (by simp), List.take_left, List.drop_left]

/-- A number takes as many octets as it is given. -/
theorem length_littleEndian (width n : Nat) : (littleEndian width n).length = width := by
  induction width generalizing n with
  | zero => rfl
  | succ width ih => simp [littleEndian, ih]

/-- The octets of a number stand for it if there are enough of them. -/
theorem ofLittleEndian_littleEndian (width : Nat) {n : Nat} (h : n < 256 ^ width) :
    ofLittleEndian (littleEndian width n) = n := by
  induction width generalizing n with
  | zero =>
    simp only [Nat.pow_zero] at h
    simp only [littleEndian, ofLittleEndian]
    omega
  | succ width ih =>
    have hhigh : n / 256 < 256 ^ width := by
      rw [Nat.div_lt_iff_lt_mul (by decide)]
      rwa [Nat.pow_succ] at h
    have hlow : (n % 256).toUInt8.toNat = n % 256 := by simp
    rw [littleEndian, ofLittleEndian, ih hhigh, hlow]
    omega

/-- Octets stand for a number that they have room for. -/
theorem ofLittleEndian_lt (bytes : Bytes) : ofLittleEndian bytes < 256 ^ bytes.length := by
  induction bytes with
  | nil => exact Nat.one_pos
  | cons b bytes ih =>
    have hb : b.toNat < 256 := b.toNat_lt
    rw [ofLittleEndian, List.length_cons, Nat.pow_succ]
    omega

/-- Octets are those of the number that they stand for. -/
theorem littleEndian_ofLittleEndian (bytes : Bytes) :
    littleEndian bytes.length (ofLittleEndian bytes) = bytes := by
  induction bytes with
  | nil => rfl
  | cons b bytes ih =>
    have hb : b.toNat < 256 := b.toNat_lt
    have hlow : (b.toNat + 256 * ofLittleEndian bytes) % 256 = b.toNat := by omega
    have hhigh : (b.toNat + 256 * ofLittleEndian bytes) / 256 = ofLittleEndian bytes := by omega
    rw [List.length_cons, ofLittleEndian, littleEndian, hlow, hhigh, ih]
    congr 1
    exact UInt8.ofNat_toNat

/-- A number of fixed width is read back. -/
theorem reads_fixed (width : Nat) {n : Nat} (h : n < 256 ^ (width + 1)) :
    (Reader.fixed width).Reads (littleEndian (width + 1) n) n := by
  intro rest
  show (takeBytes .underflow (width + 1) (littleEndian (width + 1) n ++ rest) >>= fun p =>
    .ok (ofLittleEndian p.1, p.2)) = _
  have htake := takeBytes_append .underflow (littleEndian (width + 1) n) rest
  rw [length_littleEndian] at htake
  rw [htake]
  show Except.ok (ofLittleEndian (littleEndian (width + 1) n), rest) = _
  rw [ofLittleEndian_littleEndian (width + 1) h]

/-- Content is not longer than with its length in front. -/
theorem length_le_length_delimited (content : Bytes) :
    content.length ≤ (delimited content).length := by
  simp [delimited]

/-- Octets begin with one block at most. -/
theorem delimited_append_inj {content content' rest rest' : Bytes}
    (h : delimited content ++ rest = delimited content' ++ rest') :
    content = content' ∧ rest = rest' := by
  unfold delimited at h
  rw [List.append_assoc, List.append_assoc] at h
  obtain ⟨hlength, h⟩ := varint_append_inj h
  exact List.append_inj h hlength

/-- Content can be told from its block. -/
theorem delimited_inj {content content' : Bytes} (h : delimited content = delimited content') :
    content = content' :=
  (delimited_append_inj (congrArg (· ++ []) h)).1

/-- Content is read back behind octets that state its length. -/
theorem Reader.Reads.block (fault : Nat → Fault) {front content : Bytes}
    (h : Reader.varint.Reads front content.length) :
    (Reader.block fault).Reads (front ++ content) content := by
  intro rest
  show (Reader.varint.run (front ++ content ++ rest) >>= fun p =>
    takeBytes (fault p.1) p.1 p.2) = _
  rw [List.append_assoc, h (content ++ rest)]
  exact takeBytes_append _ _ _

/-- Content with its length in front is read back. -/
theorem reads_block (fault : Nat → Fault) {content : Bytes} (h : content.length < lengthBound) :
    (Reader.block fault).Reads (delimited content) content :=
  (reads_varint h).block fault

/-- A text is read back. -/
theorem reads_text {text : String} (h : (Text.utf8 text).length < lengthBound) :
    Reader.text.Reads (delimited (Text.utf8 text)) text := by
  refine (reads_block _ h).check ?_
  rw [Text.ofUtf8?_utf8]

/-! ## Packed blocks -/

/-- Contents that are read one after the other give their elements, up to the octets behind
them. -/
theorem untilLeft_flatten {ε α : Type} {r : Reader ε α} {contents : List Bytes} {as : List α}
    (h : List.Forall₂ r.Reads contents as) (rest : Bytes) :
    r.untilLeft rest.length (contents.flatten ++ rest) = .ok (as, rest) := by
  induction h with
  | nil =>
    unfold Reader.untilLeft
    simp
  | @cons content a contents as hread _ ih =>
    have hpos : 0 < content.length := List.length_pos_iff.2 hread.ne_nil
    unfold Reader.untilLeft
    rw [if_neg (by simp; omega)]
    have hrun := hread (contents.flatten ++ rest)
    rw [← List.append_assoc, ← List.flatten_cons] at hrun
    split
    · rename_i fault herror
      rw [hrun] at herror
      cases herror
    · rename_i a' rest' hok
      rw [hrun] at hok
      cases hok
      rw [ih]
      rfl

/-- Packed elements are read back behind octets that state the length of the block. -/
theorem Reader.Reads.packed {ε α : Type} (lift : Fault → ε) {r : Reader ε α} {front : Bytes}
    {contents : List Bytes} {as : List α}
    (hfront : Reader.varint.Reads front contents.flatten.length)
    (h : List.Forall₂ r.Reads contents as) :
    (Reader.packed lift r).Reads (front ++ contents.flatten) as := by
  intro rest
  have hvarint := hfront.mapError lift (contents.flatten ++ rest)
  show readPacked lift r (front ++ contents.flatten ++ rest) = _
  unfold readPacked
  rw [List.append_assoc, hvarint]
  show (if (contents.flatten ++ rest).length < contents.flatten.length then
      Except.error (lift .underflow)
    else _) = _
  rw [if_neg (by simp)]
  have hleft : (contents.flatten ++ rest).length - contents.flatten.length = rest.length := by
    simp
  rw [hleft, untilLeft_flatten h rest]
  exact if_pos rfl

/-- A block of packed elements is read back. -/
theorem reads_packed {ε α : Type} (lift : Fault → ε) {r : Reader ε α} {contents : List Bytes}
    {as : List α} (h : List.Forall₂ r.Reads contents as)
    (hlength : contents.flatten.length < lengthBound) :
    (Reader.packed lift r).Reads (delimited contents.flatten) as :=
  (reads_varint hlength).packed lift h

/-! ## What readers give -/

namespace Reader

variable {ε α β : Type} {P : α → Prop} {Q : β → Prop}

/-- Whatever the octets are, what is read has a property. -/
def Gives (r : Reader ε α) (P : α → Prop) : Prop :=
  ∀ bytes a rest, r.run bytes = .ok (a, rest) → P a

/-- Nothing is known of what a reader gives. -/
theorem gives_true (r : Reader ε α) : r.Gives fun _ => True :=
  fun _ _ _ _ => trivial

/-- A reader that always fails gives nothing. -/
theorem gives_fail (fault : ε) : (Reader.fail fault).Gives P :=
  fun _ _ _ h => nomatch h

/-- What is changed by a function. -/
theorem Gives.map {r : Reader ε α} (h : r.Gives P) {f : α → β} (hf : ∀ a, P a → Q (f a)) :
    (r.map f).Gives Q := by
  intro bytes b rest hrun
  obtain ⟨⟨a, rest'⟩, hfirst, hrun⟩ := except_bind_eq_ok.1 hrun
  cases hrun
  exact hf a (h _ _ _ hfirst)

/-- What the reader gives that another one chooses. -/
theorem Gives.andThen {r : Reader ε α} (h : r.Gives P) {next : α → Reader ε β}
    (hnext : ∀ a, P a → (next a).Gives Q) : (r.andThen next).Gives Q := by
  intro bytes b rest hrun
  obtain ⟨⟨a, rest'⟩, hfirst, hrun⟩ := except_bind_eq_ok.1 hrun
  exact hnext a (h _ _ _ hfirst) _ _ _ hrun

/-- What is read one after the other. -/
theorem Gives.untilLeft {r : Reader ε α} (h : r.Gives P) {left : Nat} {bytes rest : Bytes}
    {as : List α} (hrun : r.untilLeft left bytes = .ok (as, rest)) : ∀ a ∈ as, P a := by
  induction hn : bytes.length using Nat.strongRecOn generalizing bytes as with
  | ind n ih =>
    unfold Reader.untilLeft at hrun
    split at hrun
    · cases hrun
      exact fun a ha => absurd ha List.not_mem_nil
    · split at hrun
      · cases hrun
      · rename_i a rest' hfirst
        obtain ⟨⟨more, rest''⟩, hmore, hrun⟩ := except_bind_eq_ok.1 hrun
        cases hrun
        have hlt := r.shorter hfirst
        exact List.forall_mem_cons.2 ⟨h _ _ _ hfirst, ih rest'.length (by omega) hmore rfl⟩

/-- The elements of a block. -/
theorem Gives.packed {r : Reader ε α} (h : r.Gives P) (lift : Fault → ε) :
    (Reader.packed lift r).Gives fun as => ∀ a ∈ as, P a := by
  intro bytes as rest hrun
  obtain ⟨⟨length, rest'⟩, _, hrun⟩ := except_bind_eq_ok.1 hrun
  simp only at hrun
  split at hrun
  · cases hrun
  · obtain ⟨⟨elements, rest''⟩, helements, hrun⟩ := except_bind_eq_ok.1 hrun
    simp only at hrun
    split at hrun
    · cases hrun
      exact h.untilLeft helements
    · cases hrun

end Reader

end DynProto.Wire
