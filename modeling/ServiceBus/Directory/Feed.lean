import ServiceBus.Directory.Update

/-!
# The feed of peer updates

Those who follow the directory read its updates one by one, each at its own pace.  Only the latest
updates are kept.  A reader that was too slow is told how many it has missed, and goes on with the
oldest one that is kept.
-/

set_option autoImplicit false

namespace ServiceBus.Directory

/-- The updates of a directory. -/
structure Feed where
  /-- How many updates are kept. -/
  capacity : Nat
  /-- All updates, oldest first. -/
  sent : Array Update := #[]
  /-- There will be no more. -/
  closed : Bool := false

/-- What a reader finds. -/
inductive Reading
  /-- Nothing new. -/
  | nothing
  /-- Nothing new, and there never will be. -/
  | ended
  /-- It has missed so many updates. -/
  | missed (count : Nat)
  /-- The next update. -/
  | update (update : Update)
deriving DecidableEq

namespace Feed

/-- A feed for so many updates: at least one, and a power of two. -/
def ofSize (size : Nat) : Feed := ⟨(max 1 size).nextPowerOfTwo, #[], false⟩

/-- Publishes an update. -/
def publish (f : Feed) (u : Update) : Feed := { f with sent := f.sent.push u }

/-- What a reader finds that has read up to a place, and the place it has read up to then. -/
def read (f : Feed) (place : Nat) : Reading × Nat :=
  if place + f.capacity < f.sent.size then
    (.missed (f.sent.size - f.capacity - place), f.sent.size - f.capacity)
  else
    match f.sent[place]? with
    | some u => (.update u, place + 1)
    | none => (if f.closed then .ended else .nothing, place)

end Feed

end ServiceBus.Directory
