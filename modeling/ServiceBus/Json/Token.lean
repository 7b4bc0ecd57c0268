import ServiceBus.Text.Octets

/-!
# Tokens of JSON

A JSON text is a sequence of tokens with blanks between them.  A string is kept as the octets
between its quotes, with the escapes as they were written, because a string that nobody asks for may
hold octets that are no text.  A number is kept as it was written too.
-/

set_option autoImplicit false

namespace ServiceBus.Json

/-- A token. -/
inductive Token
  | listStart
  | listEnd
  | objectStart
  | objectEnd
  | comma
  | colon
  | null
  | truth (value : Bool)
  | number (written : List Char)
  | string (written : Octets)
deriving DecidableEq, Repr, Inhabited

namespace Token

/-- The quote around a string. -/
def quote : UInt8 := 34

/-- The written form of a token. -/
def octets : Token → Octets
  | listStart => Octets.ofAscii ['[']
  | listEnd => Octets.ofAscii [']']
  | objectStart => Octets.ofAscii ['\x7b']
  | objectEnd => Octets.ofAscii ['\x7d']
  | comma => Octets.ofAscii [',']
  | colon => Octets.ofAscii [':']
  | null => Octets.ofAscii "null".toList
  | truth true => Octets.ofAscii "true".toList
  | truth false => Octets.ofAscii "false".toList
  | number written => Octets.ofAscii written
  | string written => quote :: written ++ [quote]

end Token

end ServiceBus.Json
