import ServiceBus.Json.Token

/-!
# From octets to tokens of JSON

The octets are read one by one.  Between two of them all that has to be known is a `Lexing`: what
token has been begun, if any.  A number ends where the next octet cannot continue it, so that octet
then starts afresh.

Inside a string only the shape of the escapes is checked here; what the string stands for is asked
when somebody reads it.
-/

set_option autoImplicit false

namespace ServiceBus.Json

/-! ## Numbers -/

/-- How far a number has been read. -/
inductive Numeral
  | sign
  | zero
  | whole
  | point
  | places
  | power
  | powerSign
  | powerDigits
deriving DecidableEq, Repr

namespace Numeral

/-- The octet is a digit. -/
def isDigit (o : UInt8) : Bool := 48 ≤ o && o ≤ 57

/-- The octet is a digit other than zero. -/
def isLeadingDigit (o : UInt8) : Bool := 49 ≤ o && o ≤ 57

/-- The octet is the letter before an exponent. -/
def isPowerMark (o : UInt8) : Bool := o = 69 || o = 101

/-- The number may end here. -/
def isComplete : Numeral → Bool
  | zero | whole | places | powerDigits => true
  | _ => false

/-- How far the number has been read after another octet, if that can continue it. -/
def next? (n : Numeral) (o : UInt8) : Option Numeral :=
  match n with
  | sign => if o = 48 then some zero else if isLeadingDigit o then some whole else none
  | zero => if o = 46 then some point else if isPowerMark o then some power else none
  | whole =>
    if isDigit o then some whole
    else if o = 46 then some point
    else if isPowerMark o then some power
    else none
  | point => if isDigit o then some places else none
  | places => if isDigit o then some places else if isPowerMark o then some power else none
  | power =>
    if isDigit o then some powerDigits else if o = 43 ∨ o = 45 then some powerSign else none
  | powerSign | powerDigits => if isDigit o then some powerDigits else none

/-- How far a number has been read after its first octet. -/
def first? (o : UInt8) : Option Numeral := if o = 45 then some sign else sign.next? o

end Numeral

/-! ## Strings -/

/-- Where in a string the reading is. -/
inductive Quoted
  | plain
  | escape
  | hex (missing : Nat)
deriving DecidableEq, Repr

namespace Quoted

/-- The octet is a hexadecimal digit. -/
def isHexDigit (o : UInt8) : Bool :=
  (48 ≤ o && o ≤ 57) || (65 ≤ o && o ≤ 70) || (97 ≤ o && o ≤ 102)

/-- The octets that may follow a backslash, the one before hexadecimal digits apart. -/
def escapes : Octets := Octets.ofAscii "\"\\/bfnrt".toList

/-- Where in the string the reading is after an octet that does not end it. -/
def next? (q : Quoted) (o : UInt8) : Option Quoted :=
  match q with
  | plain => if o < 32 then none else if o = 92 then some escape else some plain
  | escape => if o = 117 then some (hex 4) else if escapes.contains o then some plain else none
  | hex n => if isHexDigit o then some (if n ≤ 1 then plain else hex (n - 1)) else none

end Quoted

/-! ## Tokens -/

/-- What token has been begun. -/
inductive Lexing
  | between
  | word (missing : Octets) (token : Token)
  | number (stage : Numeral) (read : List Char)
  | string (stage : Quoted) (read : Octets)
deriving DecidableEq, Repr

namespace Lexing

/-- The octet is a blank of JSON. -/
def isBlank (o : UInt8) : Bool := o = 32 || o = 9 || o = 10 || o = 13

/-- Begins a token; a token of one octet is complete at once. -/
def start? (o : UInt8) : Option (Lexing × List Token) :=
  if isBlank o then some (between, [])
  else if o = Token.quote then some (string .plain [], [])
  else if o = 91 then some (between, [.listStart])
  else if o = 93 then some (between, [.listEnd])
  else if o = 123 then some (between, [.objectStart])
  else if o = 125 then some (between, [.objectEnd])
  else if o = 44 then some (between, [.comma])
  else if o = 58 then some (between, [.colon])
  else if o = 110 then some (word (Octets.ofAscii "ull".toList) .null, [])
  else if o = 116 then some (word (Octets.ofAscii "rue".toList) (.truth true), [])
  else if o = 102 then some (word (Octets.ofAscii "alse".toList) (.truth false), [])
  else (Numeral.first? o).map fun n ↦ (number n [Char.ofNat o.toNat], [])

/-- Reads an octet, and gives the tokens that are complete now. -/
def next? (l : Lexing) (o : UInt8) : Option (Lexing × List Token) :=
  match l with
  | between => start? o
  | word [] _ => none
  | word [last] token => if o = last then some (between, [token]) else none
  | word (first :: missing) token => if o = first then some (word missing token, []) else none
  | number n read =>
    match n.next? o with
    | some n' => some (number n' (Char.ofNat o.toNat :: read), [])
    | none =>
      if n.isComplete then
        (start? o).map fun (l, tokens) ↦ (l, .number read.reverse :: tokens)
      else none
  | string q read =>
    if q = .plain ∧ o = Token.quote then some (between, [.string read.reverse])
    else (q.next? o).map fun q' ↦ (string q' (o :: read), [])

/-- The tokens that are complete at the end of the text. -/
def finish? : Lexing → Option (List Token)
  | between => some []
  | number n read => if n.isComplete then some [.number read.reverse] else none
  | _ => none

/-- Reads octets; the tokens so far are given last one first. -/
def run? (l : Lexing) (tokens : List Token) : Octets → Option (List Token)
  | [] => l.finish?.map fun last ↦ tokens.reverse ++ last
  | o :: os =>
    match l.next? o with
    | none => none
    | some (l', new) => run? l' (new.reverse ++ tokens) os

end Lexing

/-- The tokens of a text. -/
def tokens? (octets : Octets) : Option (List Token) := Lexing.between.run? [] octets

end ServiceBus.Json
