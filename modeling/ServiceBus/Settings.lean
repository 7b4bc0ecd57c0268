import ServiceBus.Failure
import ServiceBus.Json.Form
import ServiceBus.Json.Relaxed

/-!
# Settings

The settings of a bus are a flat record of options, each with a value of its own when it is not
given.  They are written as JSON5: an object by the names of the options, or a list of the values in
their order.

An option that is a count takes any number.  A number with a fraction is first brought to the nearest
one that 53 binary digits hold, then cut to its whole part, and then to the range of a count.

Settings may be kept in a file.  There is no file system here: what comes of reading the file is an
argument of `Settings.ofFile`.
-/

set_option autoImplicit false

namespace ServiceBus

/-- The settings of a bus. -/
structure Settings where
  /-- The end points of the directory servers, in order of preference. -/
  directoryEndPoints : List String := []
  /-- How long one directory server is given to answer, in milliseconds. -/
  registrationTimeoutMs : Nat := 30000
  /-- The directory servers are tried in a random order. -/
  directoryPickedRandomly : Bool := false
  /-- How long a directory server that failed is put behind the others, in milliseconds. -/
  faultyDirectoryCooldownMs : Nat := 60000
  /-- Messages are kept for this peer while it is away. -/
  persistent : Bool := false
  /-- How long the persistence service is given to begin its replay, in milliseconds. -/
  startReplayTimeoutMs : Nat := 30000
  /-- How long the messages held back during a replay may take to be delivered at its end, in
  milliseconds. -/
  safetyWorkerJoinTimeoutMs : Nat := 10000
  /-- How many changes of peers are kept for a slow reader. -/
  peerUpdateQueueSize : Nat := 1024
deriving DecidableEq

namespace Settings

open Json

/-! ## Counts -/

/-- The largest count. -/
def maxCount : Nat := 0xffffffffffffffff

/-- A quotient, to the nearest whole number; of two the even one. -/
def nearest (n d : Nat) : Nat :=
  let q := n / d
  let r := n % d
  if 2 * r < d then q
  else if d < 2 * r then q + 1
  else if q % 2 = 0 then q else q + 1

/-- The whole part of a quotient that is first brought to the nearest one with 53 binary digits; none
when that is `2 ^ 1024` or more. -/
def wholePart? (n d : Nat) : Option Nat :=
  if n = 0 then some 0
  else if n <<< 52 < d then some 0
  else
    let size : Int := (Nat.log2 n : Int) - Nat.log2 d
    let scaled (shift : Int) : Nat × Nat :=
      if 0 ≤ shift then (n, d <<< shift.toNat) else (n <<< (-shift).toNat, d)
    let shift := size - 52
    let shift := if (scaled shift).1 < (scaled shift).2 <<< 52 then shift - 1 else shift
    let m := nearest (scaled shift).1 (scaled shift).2
    let whole := if 0 ≤ shift then m <<< shift.toNat else m >>> (-shift).toNat
    if 1 <<< 1024 ≤ whole then none else some whole

/-- The digits of a decimal number without its point, how many of them stood behind the point, and
what follows. -/
def decimalDigits (cs : List Char) : List Char × Nat × List Char :=
  let whole := cs.takeWhile Relaxed.isDigit
  match cs.dropWhile Relaxed.isDigit with
  | '.' :: rest =>
    let places := rest.takeWhile Relaxed.isDigit
    (whole ++ places, places.length, rest.dropWhile Relaxed.isDigit)
  | rest => (whole, 0, rest)

/-- The value of digits. -/
def digitsValue (cs : List Char) : Nat := (Digits.readMore 0 cs.length cs).1

/-- The exponent of a decimal number. -/
def exponent : List Char → Int
  | _ :: '-' :: cs => -(digitsValue cs : Int)
  | _ :: '+' :: cs => digitsValue cs
  | _ :: cs => digitsValue cs
  | [] => 0

/-- The whole part of a decimal number without sign, if the number is not too large. -/
def decimalPart? (cs : List Char) : Option Nat :=
  let (digits, places, rest) := decimalDigits cs
  let digits := digits.dropWhile (· = '0')
  let power := exponent rest - places
  if digits.isEmpty then some 0
  else if 400 < power + digits.length then none
  else if power + digits.length < -40 then some 0
  else if 0 ≤ power then wholePart? (digitsValue digits * Nat.pow 10 power.toNat) 1
  else wholePart? (digitsValue digits) (Nat.pow 10 (-power).toNat)

/-- The value of a number in hexadecimal digits, if it has at most 32 binary digits. -/
def hexPart? (cs : List Char) : Option Nat :=
  let n := cs.foldl (fun n c ↦ n * 16 + (hexValue? c).getD 0) 0
  if n < 0x100000000 then some n else none

/-- The number is written in hexadecimal digits, without sign. -/
def isHex : List Char → Bool
  | '0' :: x :: _ :: _ => x = 'x' || x = 'X'
  | _ => false

/-- Whether a written number has a minus sign, and the number without its sign. -/
def splitSign : List Char → Bool × List Char
  | '-' :: cs => (true, cs)
  | '+' :: cs => (false, cs)
  | cs => (false, cs)

/-- The names that stand for numbers without end or without value, with the signs they may have. -/
def specialNames : List (List Char) := ["Infinity", "-Infinity", "NaN", "-NaN"].map String.toList

/-- The number is written with a sign in front of what takes none. -/
def isMisigned (cs : List Char) : Bool :=
  isHex (splitSign cs).2 || Relaxed.numberNames.contains (splitSign cs).2

/-- The count that a written number is brought to. -/
def count? (cs : List Char) : Option Nat :=
  if cs = "Infinity".toList then some maxCount
  else if specialNames.contains cs then some 0
  else if isHex cs then hexPart? (cs.drop 2)
  else if isMisigned cs then none
  else
    let (negative, bare) := splitSign cs
    (decimalPart? bare).map fun n ↦ if negative then 0 else min n maxCount

/-! ## Values that are passed over -/

/-- Whether a number that nobody asks for is one at all: a whole number has to fit into 64 binary
digits, and any other number must not be too large. -/
def isNumber (cs : List Char) : Bool :=
  if specialNames.contains cs then true
  else if isHex cs then (hexPart? (cs.drop 2)).isSome
  else if isMisigned cs then false
  else
    let (negative, bare) := splitSign cs
    if bare.all Relaxed.isDigit then
      digitsValue bare ≤ (if negative then 0x8000000000000000 else 0x7fffffffffffffff)
    else (decimalPart? bare).isSome

mutual

/-- Whether a value that nobody asks for can be read at all. -/
def isReadable : Json → Bool
  | .number written => isNumber written
  | .string written => (readString? written).isSome
  | .list items => areReadable items
  | .object members => areReadableMembers members
  | _ => true

/-- Whether each of these values can be read. -/
def areReadable : List Json → Bool
  | [] => true
  | item :: items => isReadable item && areReadable items

/-- Whether each of these members can be read. -/
def areReadableMembers : List (Octets × Json) → Bool
  | [] => true
  | (name, value) :: members =>
    (readString? name).isSome && isReadable value && areReadableMembers members

end

/-! ## Options -/

/-- The names of the options, in their order. -/
def names : List String :=
  ["directory_service_end_points", "registration_timeout_ms", "is_directory_picked_randomly",
    "faulty_directory_cooldown_ms", "is_persistent", "start_replay_timeout_ms",
    "safety_worker_join_timeout_ms", "peer_update_queue_size"]

/-- Reads a count. -/
def readCount (default : Nat) : Option Json → Option Nat
  | none => some default
  | some (.number written) => count? written
  | some _ => none

/-- Reads settings from the values of the options that are given. -/
def ofParts? : List (Option Json) → Option Settings
  | [endPoints, registration, randomly, cooldown, persistent, replay, join, queue] => do
    return {
      directoryEndPoints := ← needOr [] endPoints
      registrationTimeoutMs := ← readCount 30000 registration
      directoryPickedRandomly := ← needOr false randomly
      faultyDirectoryCooldownMs := ← readCount 60000 cooldown
      persistent := ← needOr false persistent
      startReplayTimeoutMs := ← readCount 30000 replay
      safetyWorkerJoinTimeoutMs := ← readCount 10000 join
      peerUpdateQueueSize := ← readCount 1024 queue }
  | _ => none

/-- The members of an object that are no options can be read. -/
def othersReadable (members : List (Octets × Json)) : Bool :=
  members.all fun (name, value) ↦
    match readString? name with
    | none => false
    | some name => names.contains name || isReadable value

/-- Reads settings from JSON. -/
def ofJson? : Json → Option Settings
  | .list items => ((Json.list (items.take names.length)).parts? 0 names).bind ofParts?
  | .object members =>
    if othersReadable members then ((Json.object members).parts? 0 names).bind ofParts? else none
  | _ => none

/-- Reads settings from a text.  Where in the text a fault is found is left out of the failure. -/
def ofText (text : String) : Except Failure Settings :=
  match (Relaxed.ofText? text).bind ofJson? with
  | some settings => .ok settings
  | none => .error (.configuration "unable to parse JSON5 configuration")

/-- Nothing can be read at the end of a path, for the given reason. -/
def unreadable (path reason : String) : Failure :=
  .configuration ("unable to read " ++ path ++ ": " ++ reason)

/-- Reads settings from a file, given the octets that it holds or the reason why it cannot be read.
Octets that are no text cannot be read either. -/
def ofFile (path : String) : Except String Octets → Except Failure Settings
  | .error reason => .error (unreadable path reason)
  | .ok octets =>
    match octets.text? with
    | some text => ofText text
    | none => .error (unreadable path "stream did not contain valid UTF-8")

end Settings

end ServiceBus
