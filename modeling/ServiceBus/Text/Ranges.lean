/-!
# Sets of characters by their boundaries

A set of characters is given by the numbers at which membership changes, in order: the first is the
first member, the second the first character after it that is none, and so on.
-/

set_option autoImplicit false

namespace ServiceBus.Ranges

/-- Whether a number is in the set with these boundaries. -/
def contains : List Nat → Nat → Bool
  | [], _ => false
  | bound :: bounds, n => if n < bound then false else !contains bounds n

end ServiceBus.Ranges
