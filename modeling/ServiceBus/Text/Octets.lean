/-!
# Octets

Message bodies are sequences of octets.  A text stands in them in UTF-8; not every sequence is the
UTF-8 of a text.
-/

set_option autoImplicit false

namespace ServiceBus

/-- A sequence of octets. -/
abbrev Octets := List UInt8

namespace Octets

/-- The UTF-8 of a text. -/
def ofText (text : String) : Octets := text.toUTF8.data.toList

/-- The octets of characters that are all in ASCII. -/
def ofAscii (cs : List Char) : Octets := cs.map fun c ↦ UInt8.ofNat c.toNat

/-- The text whose UTF-8 these octets are, if there is one. -/
def text? (octets : Octets) : Option String := String.fromUTF8? ⟨octets.toArray⟩

theorem text?_ofText (text : String) : text? (ofText text) = some text := by
  simp [text?, ofText, String.fromUTF8?, String.fromUTF8]
  exact String.isValidUTF8 _

end Octets

end ServiceBus
