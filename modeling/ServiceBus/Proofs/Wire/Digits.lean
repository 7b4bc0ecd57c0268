import Mathlib.Algebra.Group.Nat.Defs
import ServiceBus.Text.Digits

/-!
# Numbers in decimal digits are read back

Reading takes as many digits as it is allowed to and leaves the rest.  So a number is read back
where its width uses up what is allowed, or where no further digit follows: `readMore_fixed` and
`readMore_of_stops` say so for the reader, and `read?_fixed`, `read?_padded` and `read?_plain` for
the three ways to write a number.
-/

set_option autoImplicit false

namespace ServiceBus.Digits

/-- The text does not go on with a digit. -/
def Stops (cs : List Char) : Prop := ∀ c ∈ cs.head?, value? c = none

@[simp]
theorem stops_nil : Stops [] := by simp [Stops]

theorem stops_cons {c : Char} (h : value? c = none) (cs : List Char) : Stops (c :: cs) := by
  simpa [Stops] using h

/-! ## The characters of a number -/

theorem toNat_char (d : Nat) : (char d).toNat = 48 + d % 10 := by
  have h : d % 10 < 10 := Nat.mod_lt _ (by omega)
  unfold char
  generalize d % 10 = e at h ⊢
  match e with
  | 0 | 1 | 2 | 3 | 4 | 5 | 6 | 7 | 8 | 9 => rfl
  | e + 10 => omega

theorem lt_of_mem_fixed {width n : Nat} {c : Char} (h : c ∈ fixed width n) :
    c.toNat < 128 := by
  induction width generalizing n with
  | zero => cases h
  | succ width ih =>
    rw [fixed, List.mem_append, List.mem_singleton] at h
    obtain h | rfl := h
    · exact ih h
    · rw [toNat_char]
      omega

theorem plain_of_lt {n : Nat} (h : n < 10) : plain n = [char n] := by
  rw [plain, count, dif_pos h]
  rfl

theorem plain_of_not_lt {n : Nat} (h : ¬n < 10) :
    plain n = plain (n / 10) ++ [char n] := by
  rw [plain, count, dif_neg h]
  rfl

/-! ## How many digits a number has -/

theorem lt_pow_count (n : Nat) : n < 10 ^ count n := by
  induction n using count.induct with
  | case1 n h => rw [count, dif_pos h]; omega
  | case2 n h ih => rw [count, dif_neg h, Nat.pow_succ]; omega

theorem count_pos (n : Nat) : 0 < count n := by
  rw [count]
  split <;> omega

theorem lt_pow_padded (width n : Nat) : n < 10 ^ max width (count n) :=
  Nat.lt_of_lt_of_le (lt_pow_count n) (Nat.pow_le_pow_right (by omega) (Nat.le_max_right ..))

/-! ## Reading digits -/

theorem readMore_zero (n : Nat) (cs : List Char) : readMore n 0 cs = (n, cs) := by
  cases cs <;> rfl

theorem readMore_of_stops (n most : Nat) {cs : List Char} (h : Stops cs) :
    readMore n most cs = (n, cs) := by
  cases most with
  | zero => exact readMore_zero n cs
  | succ most =>
    cases cs with
    | nil => rfl
    | cons c cs =>
      have hc : value? c = none := h c rfl
      rw [readMore, hc]

/-- Digits that are allowed are read; what was read before counts for so much more. -/
theorem readMore_fixed (n m : Nat) {width most : Nat} (h : width ≤ most) (rest : List Char) :
    readMore n most (fixed width m ++ rest) =
      readMore (n * 10 ^ width + m % 10 ^ width) (most - width) rest := by
  -- The digits are written from the last one on, so the induction takes that one off.
  induction width generalizing m rest with
  | zero => simp [fixed, Nat.mod_one]
  | succ width ih =>
    obtain ⟨left, hleft⟩ : ∃ left, most - width = left + 1 := ⟨most - width - 1, by omega⟩
    have hlast : 10 * (n * 10 ^ width + m / 10 % 10 ^ width) + m % 10 =
        n * 10 ^ (width + 1) + m % 10 ^ (width + 1) := by
      rw [Nat.pow_succ, Nat.mul_comm (10 ^ width) 10, Nat.mod_mul, Nat.mul_add,
        Nat.mul_left_comm]
      omega
    rw [fixed, List.append_assoc, ih (m / 10) (by omega), hleft, List.singleton_append, readMore,
      value?_char]
    dsimp only
    rw [hlast]
    congr 1
    omega

/-- Where the first character is a digit, reading a number is going on from nothing. -/
theorem read?_of_digit {most : Nat} {c : Char} {d : Nat} (h : value? c = some d) (hmost : 0 < most)
    (cs : List Char) : read? most (c :: cs) = some (readMore 0 most (c :: cs)) := by
  obtain ⟨most, rfl⟩ : ∃ left, most = left + 1 := ⟨most - 1, by omega⟩
  rw [read?, h, readMore, h]
  simp

theorem exists_fixed_eq_cons (width n : Nat) :
    ∃ c cs, fixed (width + 1) n = c :: cs ∧ (value? c).isSome := by
  induction width generalizing n with
  | zero => exact ⟨char n, [], rfl, by rw [value?_char]; rfl⟩
  | succ width ih =>
    obtain ⟨c, cs, hcs, hc⟩ := ih (n / 10)
    exact ⟨c, cs ++ [char n], by rw [fixed, hcs]; rfl, hc⟩

/-! ## Numbers as they are written -/

variable {most width n : Nat} {rest : List Char}

/-- A number that fits its width is read back, if nothing more may be read or no digit follows. -/
theorem read?_fixed (hwidth : 0 < width) (hmost : width ≤ most) (hn : n < 10 ^ width)
    (hrest : most = width ∨ Stops rest) :
    read? most (fixed width n ++ rest) = some (n, rest) := by
  obtain ⟨width, rfl⟩ : ∃ w, width = w + 1 := ⟨width - 1, by omega⟩
  obtain ⟨c, cs, hcs, hc⟩ := exists_fixed_eq_cons width n
  obtain ⟨d, hd⟩ := Option.isSome_iff_exists.mp hc
  have hread : read? most (fixed (width + 1) n ++ rest) =
      some (readMore 0 most (fixed (width + 1) n ++ rest)) := by
    rw [hcs]
    exact read?_of_digit hd (by omega) _
  rw [hread, readMore_fixed 0 n hmost, Nat.zero_mul, Nat.zero_add, Nat.mod_eq_of_lt hn]
  obtain rfl | hrest := hrest
  · rw [Nat.sub_self, readMore_zero]
  · rw [readMore_of_stops _ _ hrest]

theorem read?_padded (hmost : max width (count n) ≤ most) (hrest : Stops rest) :
    read? most (padded width n ++ rest) = some (n, rest) :=
  read?_fixed (Nat.lt_of_lt_of_le (count_pos n) (Nat.le_max_right ..)) hmost (lt_pow_padded width n)
    (.inr hrest)

theorem read?_plain (hmost : count n ≤ most) (hrest : Stops rest) :
    read? most (plain n ++ rest) = some (n, rest) :=
  read?_fixed (count_pos n) hmost (lt_pow_count n) (.inr hrest)

end ServiceBus.Digits
