import DynProto.Wire.Varint

/-!
# Keys and contents of fields

The key of a field, contents of fixed width, contents with a length in front, blocks of packed
elements, and the skipping of fields whose number nobody knows.
-/

namespace DynProto.Wire

/-! ## Keys -/

/-- The number and the wire type of a field. -/
structure Key where
  /-- The field number. -/
  number : Nat
  /-- The shape of the content. -/
  wireType : WireType
deriving DecidableEq, Repr

/-- The octets of a key. -/
def Key.bytes (key : Key) : Bytes :=
  varint (8 * key.number + key.wireType.code)

/-- The key that a number encodes. -/
def Key.ofNat? (n : Nat) : Except Fault Key :=
  if UInt32.size ≤ n then .error (.key n)
  else
    match WireType.ofCode? (n % 8) with
    | none => .error (.wireType (n % 8))
    | some wireType => if n / 8 = 0 then .error .zeroNumber else .ok ⟨n / 8, wireType⟩

/-- The key of a field. -/
def Reader.key : Reader Fault Key :=
  Reader.varint.check Key.ofNat?

/-! ## Contents -/

/-- A number in so many octets, the lowest first. -/
def littleEndian : Nat → Nat → Bytes
  | 0, _ => []
  | width + 1, n => (n % 256).toUInt8 :: littleEndian width (n / 256)

/-- The number whose octets these are, the lowest first. -/
def ofLittleEndian : Bytes → Nat
  | [] => 0
  | b :: rest => b.toNat + 256 * ofLittleEndian rest

/-- So many octets off the front, or a fault if there are fewer. -/
def takeBytes (fault : Fault) (n : Nat) (bytes : Bytes) : Except Fault (Bytes × Bytes) :=
  if n ≤ bytes.length then .ok (bytes.take n, bytes.drop n) else .error fault

theorem length_of_takeBytes {fault : Fault} {n : Nat} {bytes front rest : Bytes}
    (h : takeBytes fault n bytes = .ok (front, rest)) :
    front.length = n ∧ rest.length + n = bytes.length := by
  unfold takeBytes at h
  split at h
  · cases h
    simp only [List.length_take, List.length_drop]
    omega
  · cases h

/-- A number in `width + 1` octets. -/
def Reader.fixed (width : Nat) : Reader Fault Nat where
  run bytes := do
    let (front, rest) ← takeBytes .underflow (width + 1) bytes
    .ok (ofLittleEndian front, rest)
  shorter h := by
    obtain ⟨⟨front, rest'⟩, h₁, h₂⟩ := except_bind_eq_ok.1 h
    cases h₂
    have := (length_of_takeBytes h₁).2
    omega

/-- Octets with their length in front. -/
def delimited (content : Bytes) : Bytes :=
  varint content.length ++ content

/-- Content with its length in front; `fault` says what is wrong when it is cut. -/
def readBlock (fault : Nat → Fault) (bytes : Bytes) : Except Fault (Bytes × Bytes) := do
  let (length, rest) ← Reader.varint.run bytes
  takeBytes (fault length) length rest

theorem length_of_readBlock {fault : Nat → Fault} {bytes block rest : Bytes}
    (h : readBlock fault bytes = .ok (block, rest)) : rest.length < bytes.length := by
  obtain ⟨⟨length, rest'⟩, h₁, h₂⟩ := except_bind_eq_ok.1 h
  have := Reader.varint.shorter h₁
  have := (length_of_takeBytes h₂).2
  omega

/-- Content with its length in front, as a reader. -/
def Reader.block (fault : Nat → Fault) : Reader Fault Bytes where
  run := readBlock fault
  shorter := length_of_readBlock

/-- The octets of a string or of bytes. -/
def Reader.delimited : Reader Fault Bytes :=
  Reader.block fun _ => .underflow

/-- The octets of a nested message or of a map entry. -/
def Reader.body : Reader Fault Bytes :=
  Reader.block .bodyOverrun

/-- A text. -/
def Reader.text : Reader Fault String :=
  Reader.delimited.check fun bytes =>
    match Text.ofUtf8? bytes with
    | some text => .ok text
    | none => .error .notUtf8

/-- The elements of a block with its length in front; `lift` says how its own faults are told. -/
def readPacked {ε α : Type} (lift : Fault → ε) (element : Reader ε α) (bytes : Bytes) :
    Except ε (List α × Bytes) := do
  let (length, rest) ← (Reader.varint.mapError lift).run bytes
  if rest.length < length then .error (lift .underflow)
  else
    let left := rest.length - length
    let (elements, rest) ← element.untilLeft left rest
    if rest.length = left then .ok (elements, rest) else .error (lift .blockExceeded)

theorem length_of_readPacked {ε α : Type} {lift : Fault → ε} {element : Reader ε α}
    {bytes rest : Bytes} {elements : List α}
    (h : readPacked lift element bytes = .ok (elements, rest)) : rest.length < bytes.length := by
  obtain ⟨⟨length, rest'⟩, h₁, h₂⟩ := except_bind_eq_ok.1 h
  have hlt := (Reader.varint.mapError lift).shorter h₁
  simp only at h₂
  split at h₂
  · cases h₂
  · obtain ⟨⟨elements, left⟩, h₃, h₄⟩ := except_bind_eq_ok.1 h₂
    have hle := element.length_of_untilLeft _ h₃
    simp only at h₄
    split at h₄
    · cases h₄
      omega
    · cases h₄

/-- The elements of a block, as a reader. -/
def Reader.packed {ε α : Type} (lift : Fault → ε) (element : Reader ε α) :
    Reader ε (List α) where
  run := readPacked lift element
  shorter := length_of_readPacked

/-! ## Unknown fields -/

/-- How deeply the groups in an unknown field may be nested. -/
def skipDepth : Nat := 100

/-- What follows the content of a field that opens no group and ends none. -/
def skipContent (wireType : WireType) (bytes : Bytes) : Except Fault Bytes :=
  match wireType with
  | .varint => (Reader.varint.run bytes).map Prod.snd
  | .fixed64 => (Reader.fixed 7).run bytes |>.map Prod.snd
  | .fixed32 => (Reader.fixed 3).run bytes |>.map Prod.snd
  | .delimited => (Reader.delimited.run bytes).map Prod.snd
  | .startGroup => .error .endGroup
  | .endGroup => .error .endGroup

theorem length_of_map_snd {α : Type} {r : Reader Fault α} {bytes rest : Bytes}
    (h : (r.run bytes).map Prod.snd = .ok rest) : rest.length < bytes.length := by
  cases hr : r.run bytes with
  | error fault =>
    rw [hr] at h
    cases h
  | ok p =>
    rw [hr] at h
    cases h
    exact r.shorter hr

theorem length_of_skipContent {wireType : WireType} {bytes rest : Bytes}
    (h : skipContent wireType bytes = .ok rest) : rest.length < bytes.length := by
  cases wireType with
  | varint => exact length_of_map_snd h
  | fixed64 => exact length_of_map_snd h
  | fixed32 => exact length_of_map_snd h
  | delimited => exact length_of_map_snd h
  | startGroup => cases h
  | endGroup => cases h

/-- What follows the end of the innermost open group, and of all groups around it. The numbers of
the open groups are given, the innermost first; a field inside them must find some of `depth` left
beyond the groups that are open. -/
def skipGroups (depth : Nat) (groups : List Nat) (bytes : Bytes) : Except Fault Bytes :=
  match groups with
  | [] => .ok bytes
  | group :: outer =>
    match _h : Reader.key.run bytes with
    | .error fault => .error fault
    | .ok (key, rest) =>
      if key.wireType = .endGroup then
        if key.number = group then skipGroups depth outer rest else .error .endGroup
      else if depth ≤ groups.length then .error .tooDeep
      else if key.wireType = .startGroup then skipGroups depth (key.number :: groups) rest
      else
        match _h' : skipContent key.wireType rest with
        | .error fault => .error fault
        | .ok rest' => skipGroups depth groups rest'
termination_by bytes.length
decreasing_by
  · exact Reader.key.shorter _h
  · exact Reader.key.shorter _h
  · exact Nat.lt_trans (length_of_skipContent _h') (Reader.key.shorter _h)

theorem length_of_skipGroups {depth : Nat} {groups : List Nat} {bytes rest : Bytes}
    (h : skipGroups depth groups bytes = .ok rest) :
    rest.length ≤ bytes.length ∧ (groups ≠ [] → rest.length < bytes.length) := by
  induction hn : bytes.length using Nat.strongRecOn generalizing bytes groups rest with
  | ind n ih =>
    unfold skipGroups at h
    split at h
    · cases h
      exact ⟨by omega, fun h => absurd rfl h⟩
    · split at h
      · cases h
      · rename_i key rest' hkey
        have hlt := Reader.key.shorter hkey
        split at h
        · split at h
          · have := (ih rest'.length (by omega) h rfl).1
            exact ⟨by omega, fun _ => by omega⟩
          · cases h
        · split at h
          · cases h
          · split at h
            · have := (ih rest'.length (by omega) h rfl).1
              exact ⟨by omega, fun _ => by omega⟩
            · split at h
              · cases h
              · rename_i rest'' hskip
                have hlt' := length_of_skipContent hskip
                have := (ih rest''.length (by omega) h rfl).1
                exact ⟨by omega, fun _ => by omega⟩

/-- What follows an unknown field, after its key. -/
def skipField (depth : Nat) (key : Key) (bytes : Bytes) : Except Fault Bytes :=
  if depth = 0 then .error .tooDeep
  else if key.wireType = .startGroup then skipGroups depth [key.number] bytes
  else skipContent key.wireType bytes

theorem length_of_skipField {depth : Nat} {key : Key} {bytes rest : Bytes}
    (h : skipField depth key bytes = .ok rest) : rest.length < bytes.length := by
  unfold skipField at h
  split at h
  · cases h
  · split at h
    · exact (length_of_skipGroups h).2 (by simp)
    · exact length_of_skipContent h

/-- The content of an unknown field, which is dropped. -/
def Reader.skip (depth : Nat) (key : Key) : Reader Fault Unit where
  run bytes := (skipField depth key bytes).map fun rest => ((), rest)
  shorter {bytes a rest} h := by
    cases hs : skipField depth key bytes with
    | error fault =>
      rw [hs] at h
      cases h
    | ok rest' =>
      rw [hs] at h
      cases h
      exact length_of_skipField hs

end DynProto.Wire
