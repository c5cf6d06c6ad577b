import DynProto.Text.Utf8
import DynProto.Wire.Fault

/-!
# Readers of octets

A `Reader` takes something off the front of a sequence of octets and gives what is left. It always
takes at least one octet, and the type says so; a loop over readers therefore ends because the
octets do.

`Reader.untilLeft` is the one reader that looks beyond what it is given to read: the elements of a
block are read from all the octets that follow, and it is for `Reader.packed` to check afterwards
that the last one ended where the block does.
-/

namespace DynProto.Wire

/-- A reader that takes at least one octet off the front, or fails with an `ε`. -/
structure Reader (ε α : Type) where
  /-- What is read and what is left. -/
  run : Bytes → Except ε (α × Bytes)
  /-- Something is taken whenever something is read. -/
  shorter : ∀ {bytes a rest}, run bytes = .ok (a, rest) → rest.length < bytes.length

/-- A computation that succeeds has succeeded in its first step. -/
theorem except_bind_eq_ok {ε α β : Type} {x : Except ε α} {f : α → Except ε β} {b : β} :
    (x >>= f) = .ok b ↔ ∃ a, x = .ok a ∧ f a = .ok b := by
  cases x <;> simp [bind, Except.bind]

namespace Reader

variable {ε α β : Type}

/-- A reader whose result is changed, or refused, by a function. -/
def check (r : Reader ε α) (f : α → Except ε β) : Reader ε β where
  run bytes := do
    let (a, rest) ← r.run bytes
    let b ← f a
    .ok (b, rest)
  shorter h := by
    obtain ⟨⟨a, rest'⟩, h₁, h₂⟩ := except_bind_eq_ok.1 h
    obtain ⟨b, _, h₃⟩ := except_bind_eq_ok.1 h₂
    cases h₃
    exact r.shorter h₁

/-- A reader whose result is changed by a function. -/
def map (f : α → β) (r : Reader ε α) : Reader ε β :=
  r.check fun a => .ok (f a)

/-- A reader whose faults are changed by a function. -/
def mapError {ε' : Type} (f : ε → ε') (r : Reader ε α) : Reader ε' α where
  run bytes := (r.run bytes).mapError f
  shorter {bytes a rest} h := by
    cases hr : r.run bytes with
    | error fault =>
      rw [hr] at h
      cases h
    | ok p =>
      rw [hr] at h
      cases h
      exact r.shorter hr

/-- A reader that always fails. -/
def fail (fault : ε) : Reader ε α where
  run _ := .error fault
  shorter h := by cases h

/-- A reader that goes on with another one, which its result chooses. -/
def andThen (r : Reader ε α) (next : α → Reader ε β) : Reader ε β where
  run bytes := do
    let (a, rest) ← r.run bytes
    (next a).run rest
  shorter h := by
    obtain ⟨⟨a, rest'⟩, h₁, h₂⟩ := except_bind_eq_ok.1 h
    exact Nat.lt_trans ((next a).shorter h₂) (r.shorter h₁)

/-- The elements that stand before only `left` octets are left. The last one may reach into these
octets. -/
def untilLeft (r : Reader ε α) (left : Nat) (bytes : Bytes) : Except ε (List α × Bytes) :=
  if bytes.length ≤ left then .ok ([], bytes)
  else
    match _h : r.run bytes with
    | .error fault => .error fault
    | .ok (a, rest) => do
      let (more, rest) ← untilLeft r left rest
      .ok (a :: more, rest)
termination_by bytes.length
decreasing_by exact r.shorter _h

/-- Reading elements adds no octets. -/
theorem length_of_untilLeft (r : Reader ε α) (left : Nat) {bytes rest : Bytes} {as : List α}
    (h : r.untilLeft left bytes = .ok (as, rest)) : rest.length ≤ bytes.length := by
  induction hn : bytes.length using Nat.strongRecOn generalizing bytes as rest with
  | ind n ih =>
    unfold untilLeft at h
    split at h
    · cases h
      omega
    · split at h
      · cases h
      · rename_i a rest' hrun
        obtain ⟨⟨more, rest''⟩, h₁, h₂⟩ := except_bind_eq_ok.1 h
        cases h₂
        have hlt := r.shorter hrun
        have hle := ih rest'.length (by omega) h₁ rfl
        omega

end Reader

end DynProto.Wire
