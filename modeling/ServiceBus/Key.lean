/-!
# Keys

A key is a sequence of tokens.  The same type serves on both sides of routing: as the *routing
key* of a message, and as the *pattern* of a subscription, in which the token `*` stands for one
token and the token `#` for everything that is left.

A key without tokens, or with `#` as its only token, is *empty*; as a pattern it asks for every
message.  A *joined* key is a routing key that came in as one dotted text and was not taken apart:
the text is its only token.
-/

set_option autoImplicit false

namespace ServiceBus

/-- A sequence of tokens, used as the routing key of a message or as the pattern of a
subscription. -/
structure Key where
  /-- The tokens. -/
  parts : List String
  /-- The first token is a whole dotted text that was not taken apart. -/
  joined : Bool := false
deriving DecidableEq, Repr, Inhabited

namespace Key

/-- The token that stands for exactly one token. -/
def star : String := "*"

/-- The token that stands for everything that is left. -/
def sharp : String := "#"

/-- The key without tokens. -/
def empty : Key := ⟨[], false⟩

/-- The pieces between the dots of a text; there is always at least one. -/
def splitDots : List Char → List (List Char)
  | [] => [[]]
  | c :: cs =>
    if c = '.' then [] :: splitDots cs
    else
      match splitDots cs with
      | [] => [[c]]
      | piece :: pieces => (c :: piece) :: pieces

/-- Takes a dotted text apart; the empty text gives the key without tokens. -/
def parse (text : String) : Key :=
  if text = "" then empty else ⟨(splitDots text.toList).map String.ofList, false⟩

/-- The routing key that keeps a dotted text as its only token. -/
def ofJoined (text : String) : Key := ⟨[text], true⟩

/-- Tokens with a dot between each two. -/
def dotted : List String → String
  | [] => ""
  | [part] => part
  | part :: parts => part ++ "." ++ dotted parts

/-- The dotted text of a key. -/
def text (k : Key) : String := dotted k.parts

/-- No token, or the single token `#`: as a pattern such a key asks for every message. -/
def isEmpty (k : Key) : Bool := k.parts = [] || k.parts = [sharp]

/-- Two keys ask for the same messages by construction: both are empty, or they have the same
tokens.  Whether a pattern is joined makes no difference. -/
def SamePattern (k k' : Key) : Prop := (k.isEmpty ∧ k'.isEmpty) ∨ k.parts = k'.parts

instance (k k' : Key) : Decidable (SamePattern k k') := by
  unfold SamePattern
  infer_instance

theorem parts_ne_nil {k : Key} (h : k.isEmpty = false) : k.parts ≠ [] := by
  simp only [isEmpty, Bool.or_eq_false_iff, decide_eq_false_iff_not] at h
  exact h.1

end Key

end ServiceBus
