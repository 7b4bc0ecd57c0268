/-!
# Blanks

The characters with the property *White_Space*.  Core's own test knows only those of ASCII; all of
them are here too.
-/

set_option autoImplicit false

namespace ServiceBus.Blank

/-- The character is white space, in any script. -/
def isBlank (c : Char) : Bool :=
  let n := c.toNat
  (9 ≤ n && n ≤ 13) || n = 0x20 || n = 0x85 || n = 0xA0 || n = 0x1680 ||
    (0x2000 ≤ n && n ≤ 0x200A) || n = 0x2028 || n = 0x2029 || n = 0x202F || n = 0x205F ||
    n = 0x3000

/-- What is left of a text without the blanks it starts with. -/
def skip (cs : List Char) : List Char := cs.dropWhile isBlank

end ServiceBus.Blank
