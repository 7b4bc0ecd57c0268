import ServiceBus.Text.Octets

/-!
# Strings of JSON

Between its quotes a string stands with escapes: `\"` and `\\`, short forms for five control
characters, and four hexadecimal digits for the other control characters.  Every other character
stands for itself.

Reading takes every escape that JSON has.  A character outside the first plane may come as two
escapes, one for each half of its surrogate pair; a half that stands alone is refused.
-/

set_option autoImplicit false

namespace ServiceBus.Json

/-- A hexadecimal digit in small letters. -/
def hexChar (d : Nat) : Char := if d < 10 then Char.ofNat (48 + d) else Char.ofNat (87 + d)

/-- The value of a hexadecimal digit, in letters of either size. -/
def hexValue? (c : Char) : Option Nat :=
  let n := c.toNat
  if 48 ≤ n ∧ n ≤ 57 then some (n - 48)
  else if 97 ≤ n ∧ n ≤ 102 then some (n - 87)
  else if 65 ≤ n ∧ n ≤ 70 then some (n - 55)
  else none

/-- The value of four hexadecimal digits. -/
def fourHex? (a b c d : Char) : Option Nat :=
  match hexValue? a, hexValue? b, hexValue? c, hexValue? d with
  | some a, some b, some c, some d => some (((a * 16 + b) * 16 + c) * 16 + d)
  | _, _, _, _ => none

/-- How a character is written between quotes. -/
def escapeChar (c : Char) : List Char :=
  if c = '"' then ['\\', '"']
  else if c = '\\' then ['\\', '\\']
  else if c = '\x08' then ['\\', 'b']
  else if c = '\x0c' then ['\\', 'f']
  else if c = '\n' then ['\\', 'n']
  else if c = '\r' then ['\\', 'r']
  else if c = '\t' then ['\\', 't']
  else if c.toNat < 32 then
    ['\\', 'u', '0', '0', hexChar (c.toNat / 16), hexChar (c.toNat % 16)]
  else [c]

/-- How characters are written between quotes. -/
def escape (cs : List Char) : List Char := cs.flatMap escapeChar

/-- The character of an escape of one letter. -/
def shortEscape? (c : Char) : Option Char :=
  if c = '"' ∨ c = '\\' ∨ c = '/' then some c
  else if c = 'b' then some '\x08'
  else if c = 'f' then some '\x0c'
  else if c = 'n' then some '\n'
  else if c = 'r' then some '\r'
  else if c = 't' then some '\t'
  else none

/-- The value is the first half of a surrogate pair. -/
def isHighHalf (n : Nat) : Bool := 0xD800 ≤ n && n < 0xDC00

/-- The value is the second half of a surrogate pair. -/
def isLowHalf (n : Nat) : Bool := 0xDC00 ≤ n && n < 0xE000

/-- The character of a surrogate pair. -/
def ofHalves (high low : Nat) : Char :=
  Char.ofNat (0x10000 + (high - 0xD800) * 0x400 + (low - 0xDC00))

/-- The first character of a text with escapes, and what follows it. -/
def unescapeOne? : List Char → Option (Char × List Char)
  | '\\' :: 'u' :: a :: b :: c :: d :: rest =>
    match fourHex? a b c d with
    | none => none
    | some n =>
      if isLowHalf n then none
      else if isHighHalf n then
        match rest with
        | '\\' :: 'u' :: a' :: b' :: c' :: d' :: rest' =>
          match fourHex? a' b' c' d' with
          | some m => if isLowHalf m then some (ofHalves n m, rest') else none
          | none => none
        | _ => none
      else some (Char.ofNat n, rest)
  | '\\' :: c :: rest => (shortEscape? c).map fun c ↦ (c, rest)
  | '\\' :: [] => none
  | c :: rest => some (c, rest)
  | [] => none

theorem length_lt_of_unescapeOne? {cs rest : List Char} {c : Char}
    (h : unescapeOne? cs = some (c, rest)) : rest.length < cs.length := by
  unfold unescapeOne? at h
  repeat' split at h
  all_goals simp at h
  all_goals
    simp only [List.length_cons]
    grind

/-- The characters that a text with escapes stands for. -/
def unescape? (cs : List Char) : Option (List Char) :=
  if cs = [] then some []
  else
    match _h : unescapeOne? cs with
    | none => none
    | some (c, rest) => (unescape? rest).map (c :: ·)
termination_by cs.length
decreasing_by exact length_lt_of_unescapeOne? _h

/-- The octets between the quotes of a string. -/
def writtenString (text : String) : Octets := Octets.ofText (String.ofList (escape text.toList))

/-- The text that stands between quotes. -/
def readString? (written : Octets) : Option String := do
  let cs ← unescape? (← Octets.text? written).toList
  return String.ofList cs

/-! ## What is written is read back -/

theorem hexValue?_hexChar {d : Nat} (h : d < 16) : hexValue? (hexChar d) = some d := by
  revert d
  decide +kernel

theorem unescapeOne?_escapeChar (c : Char) (rest : List Char) :
    unescapeOne? (escapeChar c ++ rest) = some (c, rest) := by
  unfold escapeChar
  split
  · next h => subst h; rfl
  split
  · next h => subst h; rfl
  split
  · next h => subst h; rfl
  split
  · next h => subst h; rfl
  split
  · next h => subst h; rfl
  split
  · next h => subst h; rfl
  split
  · next h => subst h; rfl
  split
  · next h =>
    have hd : c.toNat / 16 < 16 := by omega
    have hm : c.toNat % 16 < 16 := by omega
    have h0 : hexValue? '0' = some 0 := rfl
    have hv : (0 * 16 + 0) * 16 * 16 + c.toNat / 16 * 16 + c.toNat % 16 = c.toNat := by omega
    have hl : isLowHalf c.toNat = false := by simp only [isLowHalf]; grind
    have hh : isHighHalf c.toNat = false := by simp only [isHighHalf]; grind
    have hc : Char.ofNat c.toNat = c := Char.ofNat_toNat c
    simp [unescapeOne?, fourHex?, hexValue?_hexChar hd, hexValue?_hexChar hm, h0]
    have he : c.toNat / 16 * 16 + c.toNat % 16 = c.toNat := by omega
    rw [he, hl, hh, hc]
    simp
  · next hq hb _ _ _ _ _ _ =>
    simp only [List.cons_append, List.nil_append]
    unfold unescapeOne?
    split
    · simp_all
    · simp_all
    · simp_all
    · simp_all
    · simp_all

theorem unescape?_escape (cs : List Char) : unescape? (escape cs) = some cs := by
  induction cs with
  | nil => simp [escape, unescape?]
  | cons c cs ih =>
    have hne : escape (c :: cs) ≠ [] := by
      intro h
      have := unescapeOne?_escapeChar c (escape cs)
      simp only [escape, List.flatMap_cons] at h this
      rw [h] at this
      simp [unescapeOne?] at this
    rw [unescape?, if_neg hne]
    have hone : unescapeOne? (escape (c :: cs)) = some (c, escape cs) :=
      unescapeOne?_escapeChar c (escape cs)
    split
    · next h => rw [hone] at h; simp at h
    · next h =>
      rw [hone] at h
      obtain ⟨rfl, rfl⟩ := Prod.mk.inj (Option.some.inj h)
      rw [ih]
      rfl

theorem readString?_writtenString (text : String) :
    readString? (writtenString text) = some text := by
  simp [readString?, writtenString, Octets.text?_ofText, unescape?_escape]

end ServiceBus.Json
