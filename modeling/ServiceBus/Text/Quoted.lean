import ServiceBus.Json.Escape
import ServiceBus.Text.Hidden

/-!
# Texts in quotes

In a report a text stands between quotes.  Quotes and backslashes in it get a backslash in front,
five control characters have a short form, and every other character that would not be seen stands
as its number in hexadecimal digits.
-/

set_option autoImplicit false

namespace ServiceBus.Quoted

/-- A number in hexadecimal digits, without zeros in front. -/
def hex (n : Nat) : List Char :=
  if _h : n < 16 then [Json.hexChar n] else hex (n / 16) ++ [Json.hexChar (n % 16)]

/-- How a character stands between quotes. -/
def char (c : Char) : List Char :=
  if c = '\x00' then ['\\', '0']
  else if c = '\t' then ['\\', 't']
  else if c = '\r' then ['\\', 'r']
  else if c = '\n' then ['\\', 'n']
  else if c = '"' ∨ c = '\\' then ['\\', c]
  else if Hidden.isHidden c then ['\\', 'u', '\x7b'] ++ hex c.toNat ++ ['\x7d']
  else [c]

/-- A text in quotes. -/
def text (s : String) : String := String.ofList ('"' :: s.toList.flatMap char ++ ['"'])

end ServiceBus.Quoted
