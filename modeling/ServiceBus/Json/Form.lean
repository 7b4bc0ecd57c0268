import ServiceBus.Json
import ServiceBus.Text.Digits

/-!
# JSON forms

A type has a *JSON form* when its values are written as JSON and read back from it.  Whole numbers
are read from literals without fraction and exponent only.  A value that may be missing is `null`
when it is, and may then be left out of a record altogether.

A *record* is written as an object with a fixed list of member names.  It is read from such an
object, in which other members are passed over but none of the record's own may come twice; or from
a list of the values in the order of the names.  `Json.parts?` takes a record apart, whichever of the
two it is.
-/

set_option autoImplicit false

namespace ServiceBus

/-- Types whose values are written as JSON and read from it. -/
class JsonForm (α : Type) where
  /-- The value as JSON. -/
  write : α → Json
  /-- The value that the JSON is the form of. -/
  read : Json → Option α
  /-- The value that is meant where a record does not have the part, if that is allowed. -/
  absent : Option α := none

namespace JsonForm

variable {α : Type}

/-- The octets that a value is written as. -/
def encode [JsonForm α] (a : α) : Octets := (write a).octets

/-- The value that is written as these octets. -/
def decode [JsonForm α] (octets : Octets) : Option α := (Json.ofOctets? octets).bind read

/-- The form of a type whose values are written as texts. -/
abbrev ofText (text : α → String) (ofText? : String → Option α) : JsonForm α where
  write a := Json.ofText (text a)
  read j := j.text?.bind ofText?

end JsonForm

namespace Json

/-! ## Numbers -/

/-- A natural number as a value. -/
def ofNat (n : Nat) : Json := number (Digits.plain n)

/-- A whole number as a value. -/
def ofInt (n : Int) : Json :=
  number (if n < 0 then '-' :: Digits.plain n.natAbs else Digits.plain n.natAbs)

/-- The number that digits alone are written for. -/
def digits? (cs : List Char) : Option Nat :=
  match Digits.read? cs.length cs with
  | some (n, []) => some n
  | _ => none

/-- The whole number that a value is. There is no negative zero among them. -/
def int? : Json → Option Int
  | number ('-' :: cs) => do
    let n ← digits? cs
    if n = 0 then none else some (-(n : Int))
  | number cs => (digits? cs).map fun n ↦ (n : Int)
  | _ => none

/-- The whole number between bounds that a value is. -/
def intBetween? (least most : Int) (j : Json) : Option Int := do
  let n ← j.int?
  if least ≤ n ∧ n ≤ most then some n else none

/-! ## Records -/

/-- The members of an object that have this name. -/
def membersNamed (name : String) (members : List (String × Json)) : List Json :=
  (members.filter fun m ↦ m.1 = name).map Prod.snd

/-- The parts of a record, in the order of their names.  In a list the parts after the first
`needed` ones may be missing at the end. -/
def parts? (needed : Nat) (names : List String) : Json → Option (List (Option Json))
  | object members => do
    let members ← members.mapM fun (name, value) ↦
      (readString? name).map fun name ↦ (name, value)
    names.mapM fun name ↦
      match membersNamed name members with
      | [] => some none
      | [value] => some (some value)
      | _ => none
  | list items =>
    if needed ≤ items.length ∧ items.length ≤ names.length then
      some ((List.range names.length).map fun i ↦ items[i]?)
    else none
  | _ => none

/-- Takes a record apart whose parts are all given by their values. -/
def record? (names : List String) (j : Json) : Option (List (Option Json)) :=
  j.parts? names.length names

variable {α : Type} [JsonForm α]

/-- Reads a part of a record. -/
def need (part : Option Json) : Option α :=
  match part with
  | none => JsonForm.absent
  | some j => JsonForm.read j

/-- Reads a part that has a value of its own when it is missing. -/
def needOr (default : α) (part : Option Json) : Option α :=
  match part with
  | none => some default
  | some j => JsonForm.read j

end Json

/-! ## Forms of the basic types -/

namespace JsonForm

instance : JsonForm String := ofText id some

instance : JsonForm Bool where
  write := .truth
  read
    | .truth b => some b
    | _ => none

/-- The form of a type with a single value. -/
abbrev ofNull {α : Type} (only : α) : JsonForm α where
  write _ := .null
  read
    | .null => some only
    | _ => none

instance : JsonForm UInt8 where
  write n := .ofNat n.toNat
  read j := (j.intBetween? 0 0xFF).map fun n ↦ UInt8.ofNat n.toNat

instance : JsonForm UInt32 where
  write n := .ofNat n.toNat
  read j := (j.intBetween? 0 0xFFFFFFFF).map fun n ↦ UInt32.ofNat n.toNat

instance : JsonForm Int64 where
  write n := .ofInt n.toInt
  read j := (j.intBetween? (-0x8000000000000000) 0x7FFFFFFFFFFFFFFF).map Int64.ofInt

instance {α : Type} [JsonForm α] : JsonForm (List α) where
  write as := .list (as.map write)
  read j := do (← j.items?).mapM read

instance {α : Type} [JsonForm α] : JsonForm (Option α) where
  write
    | none => .null
    | some a => write a
  read
    | .null => some none
    | j => (read j).map some
  absent := some none

/-! ## Forms of small records -/

variable {α β γ δ : Type} [JsonForm β] [JsonForm γ] [JsonForm δ]

/-- The form of a record with one part. -/
abbrev ofPart (name : String) (get : α → β) (make : β → α) : JsonForm α where
  write a := .ofMembers [(name, write (get a))]
  read j := do
    match ← j.record? [name] with
    | [b] => return make (← Json.need b)
    | _ => none

/-- The form of a record with two parts. -/
abbrev ofParts₂ (name name' : String) (get : α → β × γ) (make : β → γ → α) : JsonForm α where
  write a := .ofMembers [(name, write (get a).1), (name', write (get a).2)]
  read j := do
    match ← j.record? [name, name'] with
    | [b, c] => return make (← Json.need b) (← Json.need c)
    | _ => none

/-- The form of a record with three parts. -/
abbrev ofParts₃ (name name' name'' : String) (get : α → β × γ × δ) (make : β → γ → δ → α) :
    JsonForm α where
  write a := .ofMembers [(name, write (get a).1), (name', write (get a).2.1),
    (name'', write (get a).2.2)]
  read j := do
    match ← j.record? [name, name', name''] with
    | [b, c, d] => return make (← Json.need b) (← Json.need c) (← Json.need d)
    | _ => none

end JsonForm

end ServiceBus
