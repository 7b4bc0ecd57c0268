import ServiceBus.Text.Digits

/-!
# Spans of time as text

A span is a whole number of milliseconds.  Below a second it is written in milliseconds, and above
in seconds with up to three places, without zeros at the end; no time at all is `0ns`.
-/

set_option autoImplicit false

namespace ServiceBus.Span

/-- Drops the zeros at the end. -/
def trimZeros (cs : List Char) : List Char := (cs.reverse.dropWhile (· = '0')).reverse

/-- The text of a span of so many milliseconds. -/
def text (ms : Nat) : String :=
  if ms = 0 then "0ns"
  else if ms < 1000 then String.ofList (Digits.plain ms) ++ "ms"
  else
    let places := trimZeros (Digits.fixed 3 (ms % 1000))
    let point := if places.isEmpty then [] else '.' :: places
    String.ofList (Digits.plain (ms / 1000) ++ point) ++ "s"

example : text 250 = "250ms" := by decide +kernel
example : text 1500 = "1.5s" := by decide +kernel
example : text 60000 = "60s" := by decide +kernel

end ServiceBus.Span
