/-!
# Digits

Numbers written with a fixed count of decimal digits, and digits read back.  A number with fewer
digits gets zeros in front; one with more loses the digits in front, so a caller chooses the width
that fits.
-/

set_option autoImplicit false

namespace ServiceBus.Digits

/-- The character of a decimal digit. -/
def char (d : Nat) : Char := Char.ofNat (48 + d % 10)

/-- The value of a decimal digit. -/
def value? (c : Char) : Option Nat :=
  if 48 ≤ c.toNat ∧ c.toNat ≤ 57 then some (c.toNat - 48) else none

/-- The last `width` digits of a number. -/
def fixed : Nat → Nat → List Char
  | 0, _ => []
  | width + 1, n => fixed width (n / 10) ++ [char n]

/-- The number of digits of a number; zero has one. -/
def count (n : Nat) : Nat := if h : n < 10 then 1 else count (n / 10) + 1

/-- A number without zeros in front. -/
def plain (n : Nat) : List Char := fixed (count n) n

/-- A number with zeros in front up to a least width. -/
def padded (width n : Nat) : List Char := fixed (max width (count n)) n

/-- Goes on reading a number of at most `most` further digits, and gives what follows it. -/
def readMore (n : Nat) : Nat → List Char → Nat × List Char
  | most + 1, c :: cs =>
    match value? c with
    | some d => readMore (10 * n + d) most cs
    | none => (n, c :: cs)
  | _, cs => (n, cs)

/-- Reads a number of one to `most` digits, and gives what follows it. -/
def read? (most : Nat) : List Char → Option (Nat × List Char)
  | [] => none
  | c :: cs => (value? c).map fun d ↦ readMore d (most - 1) cs

theorem value?_char (d : Nat) : value? (char d) = some (d % 10) := by
  have h : d % 10 < 10 := Nat.mod_lt _ (by omega)
  unfold char
  generalize d % 10 = e at h ⊢
  match e with
  | 0 | 1 | 2 | 3 | 4 | 5 | 6 | 7 | 8 | 9 => rfl
  | e + 10 => omega

theorem length_fixed (width n : Nat) : (fixed width n).length = width := by
  induction width generalizing n with
  | zero => rfl
  | succ width ih => simp [fixed, ih]

end ServiceBus.Digits
