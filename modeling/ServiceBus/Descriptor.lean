import ServiceBus.Instant
import ServiceBus.Peer
import ServiceBus.Subscription

/-!
# Descriptors

A descriptor is what the directory tells about a peer: the peer itself, its subscriptions, whether
messages are kept for it while it is away, and since when all this holds.  In a message the peer is
plain data; in the memory of a client it is a reference to an instance.  Hence the parameter.
-/

set_option autoImplicit false

namespace ServiceBus

/-- What is told about a peer, where peers are given as values of `π`. -/
structure Descriptor (π : Type) where
  /-- The peer. -/
  peer : π
  /-- What it asks for. -/
  subscriptions : List Subscription
  /-- Messages are kept for it while it is away. -/
  persistent : Bool := false
  /-- Since when this holds, if that is told. -/
  timestamp : Option Instant := none
  /-- A debugger is attached to it. -/
  debugged : Bool := false
deriving DecidableEq

namespace Descriptor

/-- The descriptor with its peer given in another way. -/
def withPeer {π ρ : Type} (d : Descriptor π) (peer : ρ) : Descriptor ρ := { d with peer }

end Descriptor

end ServiceBus
