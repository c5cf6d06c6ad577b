/-!
# Decimal integers

Writing natural numbers and integers in decimal, and reading them back. What is written has no
sign for a number that is not negative and no leading zero; what is read may have either.
`natural?_digits` and `integer?_integerChars` say that reading undoes writing.
-/

namespace DynProto.Text

/-- The character of a digit below ten. -/
def digitChar (d : Nat) : Char :=
  Char.ofNat (48 + d)

/-- The decimal digits of a number, most significant first and without a leading zero. -/
def digits (n : Nat) : List Char :=
  if n < 10 then [digitChar n] else digits (n / 10) ++ [digitChar (n % 10)]

/-- The number that a digit character stands for. -/
def digitValue (c : Char) : Nat :=
  c.toNat - 48

/-- The positional value of a list of digit characters. -/
def digitsValue (cs : List Char) : Nat :=
  cs.foldl (fun n c => 10 * n + digitValue c) 0

/-- The number spelled by one or more digits and nothing else. -/
def natural? (cs : List Char) : Option Nat :=
  if !cs.isEmpty && cs.all Char.isDigit then some (digitsValue cs) else none

/-- The number spelled by digits after an optional plus sign. -/
def unsigned? : List Char → Option Nat
  | '+' :: cs => natural? cs
  | cs => natural? cs

/-- The number spelled by digits after an optional plus or minus sign. -/
def integer? : List Char → Option Int
  | '-' :: cs => (natural? cs).map fun n => -(n : Int)
  | cs => (unsigned? cs).map fun n => (n : Int)

/-- The decimal characters of an integer. -/
def integerChars : Int → List Char
  | .ofNat n => digits n
  | .negSucc n => '-' :: digits (n + 1)

/-- The decimal text of a natural number. -/
def natural (n : Nat) : String :=
  String.ofList (digits n)

/-- The decimal text of an integer. -/
def integer (n : Int) : String :=
  String.ofList (integerChars n)

/-! ## Reading undoes writing -/

theorem isDigit_digitChar {d : Nat} (h : d < 10) : (digitChar d).isDigit = true := by
  match d, h with
  | 0, _ | 1, _ | 2, _ | 3, _ | 4, _ | 5, _ | 6, _ | 7, _ | 8, _ | 9, _ => rfl

theorem digitValue_digitChar {d : Nat} (h : d < 10) : digitValue (digitChar d) = d := by
  match d, h with
  | 0, _ | 1, _ | 2, _ | 3, _ | 4, _ | 5, _ | 6, _ | 7, _ | 8, _ | 9, _ => rfl

theorem digits_ne_nil (n : Nat) : digits n ≠ [] := by
  unfold digits
  split <;> simp

/-- Only digits are written. -/
theorem all_isDigit_digits (n : Nat) : (digits n).all Char.isDigit = true := by
  induction n using Nat.strongRecOn with
  | ind n ih =>
    unfold digits
    split
    · rename_i h
      simp [isDigit_digitChar h]
    · rename_i h
      have hlast : (digitChar (n % 10)).isDigit = true :=
        isDigit_digitChar (Nat.mod_lt _ (by decide))
      simp only [List.all_append, ih (n / 10) (by omega), Bool.true_and]
      simp [hlast]

/-- The digits of a number have that number as their positional value. -/
theorem digitsValue_digits (n : Nat) : digitsValue (digits n) = n := by
  induction n using Nat.strongRecOn with
  | ind n ih =>
    unfold digits
    split
    · rename_i h
      simp [digitsValue, digitValue_digitChar h]
    · rename_i h
      have ih' := ih (n / 10) (by omega)
      simp only [digitsValue] at ih'
      simp only [digitsValue, List.foldl_append, ih', List.foldl_cons, List.foldl_nil,
        digitValue_digitChar (Nat.mod_lt n (by decide : 0 < 10))]
      omega

/-- Reading the digits of a number gives the number. -/
theorem natural?_digits (n : Nat) : natural? (digits n) = some n := by
  have hne : (digits n).isEmpty = false := by
    cases h : digits n with
    | nil => exact absurd h (digits_ne_nil n)
    | cons _ _ => rfl
  simp [natural?, hne, all_isDigit_digits, digitsValue_digits]

theorem head_digits_isDigit {n : Nat} {c : Char} {rest : List Char} (h : digits n = c :: rest) :
    c.isDigit = true := by
  have hall := all_isDigit_digits n
  rw [h, List.all_cons, Bool.and_eq_true] at hall
  exact hall.1

/-- Reading an unsigned number undoes writing it. -/
theorem unsigned?_digits (n : Nat) : unsigned? (digits n) = some n := by
  unfold unsigned?
  split
  · rename_i cs h
    exact absurd (head_digits_isDigit h) (by decide)
  · exact natural?_digits n

/-- Reading an integer undoes writing it. -/
theorem integer?_integerChars (n : Int) : integer? (integerChars n) = some n := by
  cases n with
  | ofNat n =>
    simp only [integerChars]
    unfold integer?
    split
    · rename_i cs h
      exact absurd (head_digits_isDigit h) (by decide)
    · simp [unsigned?_digits]
  | negSucc n =>
    simp only [integerChars, integer?, natural?_digits]
    rfl

end DynProto.Text
