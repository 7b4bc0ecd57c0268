import ServiceBus.Uuid

/-!
# Phases of reception

A peer for which messages are kept goes through three phases once it is registered.  While it is in
the *replay* phase it is given what it has missed, and holds back what comes in besides.  In the
*safety* phase it takes both from one queue, and passes over what it was given already.  In the
*normal* phase it takes what comes in.

A peer for which no messages are kept takes what comes in from the beginning: it is *direct*.
-/

set_option autoImplicit false

namespace ServiceBus.Durable

/-- A phase; the ones with a replay know its id, once it has been asked for. -/
inductive Phase
  | direct
  | replay (session : Option Uuid)
  | safety (session : Uuid)
  | normal
deriving DecidableEq, Inhabited

namespace Phase

/-- The name of a phase. -/
def name : Phase → String
  | direct => "NoReplay"
  | replay _ => "Replay"
  | safety _ => "Safety"
  | normal => "Normal"

/-- The id of the replay that is going on. -/
def session : Phase → Option Uuid
  | replay session => session
  | safety session => some session
  | _ => none

end Phase

end ServiceBus.Durable
