import ServiceBus.Directory.Client
import ServiceBus.Durable.Protocol

/-!
# The directory as others see it

Routing and the transport ask the directory two things: who handles messages of a topic, and whether
messages are kept for a peer.  A `View` answers both, as they stand at one moment.
-/

set_option autoImplicit false

namespace ServiceBus.Directory

/-- The directory as others see it. -/
structure View where
  /-- The states of all instances. -/
  roster : Roster
  /-- The peers that ask for messages of a topic. -/
  handlers : Topic → List PeerRef
  /-- Whether messages are kept for a peer. -/
  isPersistent : PeerId → Bool

namespace View

/-- The topic of the commands that the persistence service handles. -/
def persistenceTopic : Topic := ⟨Message.type Durable.Persist, .empty⟩

/-- The persistence server to turn to: the first of them that is up. -/
def persistenceServer? (v : View) : Option Peer :=
  ((v.handlers persistenceTopic).map v.roster.peer).find? fun p ↦ p.contact.up

end View

/-- A registry as others see it. -/
def Registry.view (r : Registry) : View := ⟨r.roster, r.handlers, r.isPersistent⟩

end ServiceBus.Directory
