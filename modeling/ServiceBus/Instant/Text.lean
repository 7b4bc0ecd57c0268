import ServiceBus.Instant
import ServiceBus.Text.Blank
import ServiceBus.Text.Digits

/-!
# Instants as text

An instant is written as date and time of day with a `T` between them and a `Z` behind, for
instance `2024-03-01T12:00:00.250Z`.  The year has four digits, or a sign and at least four digits
outside the years from 0 to 9999; the fraction has 0, 3, 6 or 9 digits, the fewest that lose nothing.

Reading is more generous.  Any offset from universal time is taken, and is taken off; the date and
the time of day may be apart by a `T` of either size or a blank; a number may lack the zeros in
front of it, and may have blanks before it and behind it; a fraction is cut after nine digits.
-/

set_option autoImplicit false

namespace ServiceBus.Instant

/-! ## Writing -/

/-- A year: four digits, with a sign where four digits do not tell. -/
def yearText (year : Int) : List Char :=
  if 0 ≤ year ∧ year ≤ 9999 then Digits.fixed 4 year.toNat
  else (if year < 0 then '-' else '+') :: Digits.padded 4 year.natAbs

/-- The fraction of a second, to the nanosecond: as few groups of three digits as lose nothing. -/
def fractionText (nano : Nat) : List Char :=
  if nano = 0 then []
  else if nano % 1000000 = 0 then '.' :: Digits.fixed 3 (nano / 1000000)
  else if nano % 1000 = 0 then '.' :: Digits.fixed 6 (nano / 1000)
  else '.' :: Digits.fixed 9 nano

/-- The characters of the written form. -/
def chars (t : Instant) : List Char :=
  yearText t.date.year ++ '-' :: Digits.fixed 2 t.date.month ++ '-' :: Digits.fixed 2 t.date.day ++
    'T' :: Digits.fixed 2 t.hour ++ ':' :: Digits.fixed 2 t.minute ++
    ':' :: Digits.fixed 2 t.second ++ fractionText t.nano ++ ['Z']

/-- The written form. -/
def text (t : Instant) : String := String.ofList t.chars

/-- The written form of an instant that may be missing, as reports show it. -/
def reportText : Option Instant → String
  | some t => "Some(" ++ t.text ++ ")"
  | none => "None"

/-! ## Reading -/

/-- Reads one given character. -/
def literal? (c : Char) : List Char → Option (List Char)
  | [] => none
  | d :: cs => if d = c then some cs else none

/-- Reads a given character behind blanks. -/
def separator? (c : Char) (cs : List Char) : Option (List Char) := literal? c (Blank.skip cs)

/-- Reads a number of at most two digits behind blanks. -/
def twoDigits? (cs : List Char) : Option (Nat × List Char) := Digits.read? 2 (Blank.skip cs)

/-- Reads a year: at most four digits, or a sign and any number of digits. -/
def year? (cs : List Char) : Option (Int × List Char) :=
  match Blank.skip cs with
  | '-' :: rest => (Digits.read? rest.length rest).map fun (n, rest) ↦ (-(n : Int), rest)
  | '+' :: rest => (Digits.read? rest.length rest).map fun (n, rest) ↦ ((n : Int), rest)
  | cs => (Digits.read? 4 cs).map fun (n, rest) ↦ ((n : Int), rest)

/-- Reads a date. -/
def date? (cs : List Char) : Option (Date × List Char) := do
  let (year, cs) ← year? cs
  let cs ← separator? '-' cs
  let (month, cs) ← twoDigits? cs
  let cs ← separator? '-' cs
  let (day, cs) ← twoDigits? cs
  return (⟨year, month, day⟩, cs)

/-- Reads what may stand between date and time of day. -/
def dateEnd? : List Char → Option (List Char)
  | [] => none
  | c :: cs => if c = 't' ∨ c = 'T' ∨ c = ' ' then some cs else none

/-- Reads the fraction of a second, if there is one, as nanoseconds. -/
def fraction? : List Char → Option (Nat × List Char)
  | '.' :: cs => do
    let (n, rest) ← Digits.read? 9 cs
    let places := cs.length - rest.length
    return (n * Nat.pow 10 (9 - places), rest.dropWhile fun c ↦ (Digits.value? c).isSome)
  | cs => some (0, cs)

/-- Reads a time of day as hour, minute, second and nanosecond. -/
def timeOfDay? (cs : List Char) : Option ((Nat × Nat × Nat × Nat) × List Char) := do
  let (hour, cs) ← twoDigits? cs
  let cs ← separator? ':' cs
  let (minute, cs) ← twoDigits? cs
  let cs ← separator? ':' cs
  let (second, cs) ← twoDigits? cs
  let (nano, cs) ← fraction? cs
  return ((hour, minute, second, nano), cs)

/-- Reads two digits. -/
def pair? : List Char → Option (Nat × List Char)
  | c :: d :: cs =>
    match Digits.value? c, Digits.value? d with
    | some m, some n => some (10 * m + n, cs)
    | _, _ => none
  | _ => none

/-- Reads hours and minutes, with colons or blanks or nothing between them, as minutes. -/
def span? (cs : List Char) : Option (Nat × List Char) := do
  let (hours, cs) ← pair? cs
  let (minutes, cs) ← pair? (cs.dropWhile fun c ↦ c = ':' || Blank.isBlank c)
  if minutes < 60 ∧ hours < 24 then return (60 * hours + minutes, cs) else none

/-- Whether the text starts with the letters of `UTC`, in either size. -/
def startsWithUtc : List Char → Bool
  | u :: t :: c :: _ => (u = 'u' || u = 'U') && (t = 't' || t = 'T') && (c = 'c' || c = 'C')
  | _ => false

/-- Reads the offset from universal time in minutes. -/
def offset? (cs : List Char) : Option (Int × List Char) :=
  if startsWithUtc cs then some (0, cs.drop 3)
  else
    match cs with
    | [] => none
    | c :: cs =>
      if c = 'Z' ∨ c = 'z' then some (0, cs)
      else if c = '+' then (span? cs).map fun (n, rest) ↦ ((n : Int), rest)
      else if c = '-' ∨ c = '\u2212' then (span? cs).map fun (n, rest) ↦ (-(n : Int), rest)
      else none

/-- Takes an offset of less than a day off a local time. -/
def shifted (date : Date) (hour minute : Nat) (offset : Int) : Date × Nat × Nat :=
  let minutes : Int := 60 * hour + minute - offset
  let date := if minutes < 0 then date.previous else if 1440 ≤ minutes then date.next else date
  let inDay := (minutes % 1440).toNat
  (date, inDay / 60, inDay % 60)

/-- Reads an instant. -/
def ofChars? (cs : List Char) : Option Instant := do
  let (date, cs) ← date? cs
  let cs ← dateEnd? cs
  let ((hour, minute, second, nano), cs) ← timeOfDay? cs
  let (offset, cs) ← offset? (Blank.skip cs)
  if Blank.skip cs = [] then
    let there ← ofParts? date hour minute second nano
    let (date, hour, minute) := shifted there.date there.hour there.minute offset
    ofParts? date hour minute second nano
  else none

/-- Reads an instant. -/
def ofText? (text : String) : Option Instant := ofChars? text.toList

end ServiceBus.Instant
