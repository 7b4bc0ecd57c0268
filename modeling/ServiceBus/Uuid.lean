/-!
# Universally unique ids

An id is its 32 hexadecimal digits.  It is written in small letters in five groups of 8, 4, 4, 4
and 12 digits with hyphens between them; it is read from that form, from the digits alone, from the
form in braces and from the form with `urn:uuid:` in front, in letters of either size.

`Uuid.ofText?_text` says that what is written is read back.
-/

set_option autoImplicit false

namespace ServiceBus

/-- An id of 128 bits, as its hexadecimal digits. -/
structure Uuid where
  /-- The digits, highest first. -/
  digits : List (Fin 16)
  /-- There are 32 of them. -/
  length_digits : digits.length = 32
deriving DecidableEq

namespace Uuid

/-- The id with this value, without the bits above the 128th. -/
def ofNat (n : Nat) : Uuid where
  digits := (List.range 32).map fun i ↦ Fin.ofNat 16 (n >>> (4 * (31 - i)))
  length_digits := by simp

/-- The id whose digits are all zero. -/
def zero : Uuid := ofNat 0

instance : Inhabited Uuid := ⟨zero⟩

/-- The least of the ids that are given out. -/
def firstFresh : Nat := 0xfeed5a1e000040008000000000000000

/-- The ids that are given out, one after the other. -/
def fresh (n : Nat) : Uuid := ofNat (firstFresh + n)

/-- The digit as a character. -/
def hexChar (d : Fin 16) : Char :=
  if d.val < 10 then Char.ofNat (48 + d.val) else Char.ofNat (87 + d.val)

/-- The digit that a character stands for, in letters of either size. -/
def hexDigit? (c : Char) : Option (Fin 16) :=
  let n := c.toNat
  if 48 ≤ n ∧ n ≤ 57 then some (Fin.ofNat 16 (n - 48))
  else if 97 ≤ n ∧ n ≤ 102 then some (Fin.ofNat 16 (n - 87))
  else if 65 ≤ n ∧ n ≤ 70 then some (Fin.ofNat 16 (n - 55))
  else none

/-- The sizes of the groups of digits. -/
def groups : List Nat := [8, 4, 4, 4, 12]

/-- Digits in groups, with a hyphen between each two. -/
def write : List Nat → List (Fin 16) → List Char
  | [], _ => []
  | [n], ds => (ds.take n).map hexChar
  | n :: ns, ds => (ds.take n).map hexChar ++ '-' :: write ns (ds.drop n)

/-- Digits and nothing else. -/
def readDigits : List Char → Option (List (Fin 16))
  | [] => some []
  | c :: cs =>
    match hexDigit? c, readDigits cs with
    | some d, some ds => some (d :: ds)
    | _, _ => none

/-- Reads digits in groups of the given sizes. -/
def read : List Nat → List Char → Option (List (Fin 16))
  | [], cs => if cs.isEmpty then some [] else none
  | [n], cs => if cs.length = n then readDigits cs else none
  | n :: ns, cs =>
    match cs.drop n with
    | '-' :: rest =>
      match readDigits (cs.take n), read ns rest with
      | some ds, some ds' => some (ds ++ ds')
      | _, _ => none
    | _ => none

/-- The written form of an id. -/
def text (u : Uuid) : String := String.ofList (write groups u.digits)

/-- The id with these digits, if there are 32. -/
def ofDigits? (ds : List (Fin 16)) : Option Uuid :=
  if h : ds.length = 32 then some ⟨ds, h⟩ else none

/-- What may stand in front of an id, in small letters. -/
def urnStem : List Char := "urn:uuid:".toList

/-- Reads an id from any of its four forms, told apart by their lengths. -/
def ofChars? (cs : List Char) : Option Uuid :=
  let digits :=
    if cs.length = 32 then readDigits cs
    else if cs.length = 36 then read groups cs
    else if cs.length = 38 then
      if cs.head? = some '\x7b' ∧ cs.getLast? = some '\x7d' then
        read groups (cs.tail.take 36)
      else none
    else if cs.length = 45 then
      if (cs.take 9).map Char.toLower = urnStem then read groups (cs.drop 9) else none
    else none
  digits.bind ofDigits?

/-- Reads an id. -/
def ofText? (text : String) : Option Uuid := ofChars? text.toList

/-! ## What is written is read back -/

theorem hexDigit?_hexChar (d : Fin 16) : hexDigit? (hexChar d) = some d := by
  revert d
  decide +kernel

theorem readDigits_map_hexChar (ds : List (Fin 16)) :
    readDigits (ds.map hexChar) = some ds := by
  induction ds with
  | nil => rfl
  | cons d ds ih => simp [readDigits, hexDigit?_hexChar, ih]

theorem read_write (ns : List Nat) (ds : List (Fin 16)) (h : ds.length = ns.foldr (· + ·) 0) :
    read ns (write ns ds) = some ds := by
  induction ns generalizing ds with
  | nil =>
    have : ds = [] := List.length_eq_zero_iff.mp h
    simp [read, write, this]
  | cons n ns ih =>
    cases ns with
    | nil =>
      have hn : ds.length = n := by simpa using h
      have ht : ds.take n = ds := List.take_of_length_le (by omega)
      simp [read, write, ht, hn, readDigits_map_hexChar]
    | cons m ms =>
      have hlen : ((ds.take n).map hexChar).length = n := by
        simp only [List.length_map, List.length_take, List.foldr_cons] at h ⊢
        omega
      have hrest : (ds.drop n).length = (m :: ms).foldr (· + ·) 0 := by
        simp only [List.length_drop, List.foldr_cons] at h ⊢
        omega
      rw [write, read, List.drop_left' hlen, List.take_left' hlen]
      · have hr := ih _ hrest
        rw [readDigits_map_hexChar]
        simp [hr]
      · simp
      · simp

theorem length_write (ns : List Nat) (ds : List (Fin 16)) (h : ds.length = ns.foldr (· + ·) 0) :
    (write ns ds).length = ds.length + (ns.length - 1) := by
  induction ns generalizing ds with
  | nil => simp_all [write]
  | cons n ns ih =>
    cases ns with
    | nil => simp_all [write]
    | cons m ms =>
      have hrest : (ds.drop n).length = (m :: ms).foldr (· + ·) 0 := by
        simp only [List.length_drop, List.foldr_cons] at h ⊢
        omega
      have hw := ih _ hrest
      rw [write]
      · simp only [List.length_append, List.length_map, List.length_take, List.length_cons, hw,
          List.length_drop, List.foldr_cons] at h ⊢
        omega
      · simp

/-- The written form is read back. -/
theorem ofText?_text (u : Uuid) : ofText? u.text = some u := by
  obtain ⟨ds, hds⟩ := u
  have hsum : ds.length = groups.foldr (· + ·) 0 := by simp [hds, groups]
  have hlen : (write groups ds).length = 36 := by
    rw [length_write _ _ hsum, hds]
    rfl
  simp [ofText?, ofChars?, text, hlen, read_write _ _ hsum, ofDigits?, hds]

end Uuid

end ServiceBus
