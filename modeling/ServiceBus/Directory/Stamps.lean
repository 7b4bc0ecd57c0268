import ServiceBus.Instant

/-!
# Timestamps of commands

A command to the directory carries the time at which it was given.  The directory would take two
commands with one timestamp for one command, and would drop the one with the earlier timestamp; so
every timestamp is later than the one before it.  Where the clock does not see to that, the next slot
after the last timestamp is given.
-/

set_option autoImplicit false

namespace ServiceBus.Directory

/-- The source of the timestamps of one client. -/
structure Stamps where
  /-- The last timestamp that was given. -/
  last : Option Instant := none

namespace Stamps

/-- The timestamp to give at a reading of the clock; none if it could not be represented. -/
def next? (s : Stamps) (now : Instant) : Option Instant :=
  match s.last with
  | some last => if now ≤ last then last.afterTick? else some now
  | none => some now

/-- Gives a timestamp.  When there is none to give, the last one given stays the last. -/
def take (s : Stamps) (now : Instant) : Option Instant × Stamps :=
  match s.next? now with
  | some t => (some t, ⟨some t⟩)
  | none => (none, s)

/-- A timestamp is later than the one before it. -/
theorem last_lt_of_next? {s : Stamps} {now t last : Instant} (hlast : s.last = some last)
    (h : s.next? now = some t) : last < t := by
  simp only [next?, hlast] at h
  split at h
  · exact Instant.lt_of_afterTick? h
  · next hn =>
    obtain rfl := Option.some.inj h
    rw [Instant.le_iff_rank] at hn
    rw [Instant.lt_iff_rank]
    omega

end Stamps

end ServiceBus.Directory
