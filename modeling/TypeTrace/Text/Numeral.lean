/-!
# Decimal numerals

Writing natural numbers and integers in base ten, and reading unsigned numerals
below a bound: an optional plus sign and at least one ASCII digit, leading
zeros allowed.

Main statements:

* `valueOf?_digits`: the written form of a number has that number as its value;
* `unsigned?_digits`: it is accepted under every bound above the number.
-/

namespace TypeTrace.Text.Numeral

/-- The character of a digit below ten. -/
def digitChar (d : Nat) : Char := Char.ofNat (0x30 + d)

/-- The value of an ASCII digit. -/
def digit? (c : Char) : Option Nat :=
  if 0x30 ≤ c.toNat ∧ c.toNat ≤ 0x39 then some (c.toNat - 0x30) else none

/-- The digits of a number in base ten, without leading zeros. -/
def digits (n : Nat) : List Char :=
  if n < 10 then [digitChar n] else digits (n / 10) ++ [digitChar (n % 10)]

/-- The number that a row of digits continues `acc` to. -/
def valueFrom? (acc : Nat) : List Char → Option Nat
  | [] => some acc
  | c :: cs => (digit? c).bind fun d => valueFrom? (acc * 10 + d) cs

/-- The number that a row of digits denotes; the row has at least one. -/
def valueOf? (cs : List Char) : Option Nat :=
  if cs.isEmpty then none else valueFrom? 0 cs

/-- Reads an unsigned numeral that denotes a number below `bound`. -/
def unsigned? (bound : Nat) (cs : List Char) : Option Nat :=
  let body := match cs with
    | '+' :: rest => rest
    | cs => cs
  (valueOf? body).bind fun n => if n < bound then some n else none

/-- A natural number in base ten. -/
def ofNat (n : Nat) : String := String.ofList (digits n)

/-- An integer in base ten, with a minus sign below zero. -/
def ofInt (i : Int) : String :=
  if i < 0 then "-" ++ ofNat i.natAbs else ofNat i.natAbs

/-! ## Reading back what is written -/

/-- The character of a digit is read as the digit. -/
theorem digit?_digitChar {d : Nat} (h : d < 10) : digit? (digitChar d) = some d := by
  have all : ∀ d, d < 10 → digit? (digitChar d) = some d := by decide
  exact all d h

/-- Digits in a row are read one part after the other. -/
theorem valueFrom?_append (acc : Nat) (l r : List Char) :
    valueFrom? acc (l ++ r) = (valueFrom? acc l).bind fun n => valueFrom? n r := by
  induction l generalizing acc with
  | nil => rfl
  | cons c cs ih =>
    cases h : digit? c with
    | none => simp [valueFrom?, h]
    | some d => simp [valueFrom?, h, ih]

/-- Every number has a digit. -/
theorem digits_ne_nil (n : Nat) : digits n ≠ [] := by
  rw [digits]
  split <;> simp

/-- The digits of a number are read as the number. -/
theorem valueFrom?_digits (n : Nat) : valueFrom? 0 (digits n) = some n := by
  rw [digits]
  split
  · rename_i h
    simp [valueFrom?, digit?_digitChar h]
  · have hrec := valueFrom?_digits (n / 10)
    have hlast : n % 10 < 10 := by omega
    rw [valueFrom?_append, hrec]
    simp only [Option.bind_some, valueFrom?, digit?_digitChar hlast]
    congr 1
    omega

theorem valueOf?_digits (n : Nat) : valueOf? (digits n) = some n := by
  simp [valueOf?, digits_ne_nil, valueFrom?_digits]

/-- No sign stands before the digits of a number. -/
theorem digits_head_ne_plus (n : Nat) : (digits n).head? ≠ some '+' := by
  rw [digits]
  split
  · rename_i h
    have all : ∀ d, d < 10 → digitChar d ≠ '+' := by decide
    simpa using all n h
  · rename_i h
    have hrec := digits_head_ne_plus (n / 10)
    cases hd : digits (n / 10) with
    | nil => exact absurd hd (digits_ne_nil _)
    | cons c cs => simpa [hd] using hrec

/-- A number below the bound is read from its digits. -/
theorem unsigned?_digits {n bound : Nat} (h : n < bound) :
    unsigned? bound (digits n) = some n := by
  have hplus := digits_head_ne_plus n
  unfold unsigned?
  split
  · rename_i rest heq
    rw [heq] at hplus
    simp at hplus
  · simp [valueOf?_digits, h]

end TypeTrace.Text.Numeral
