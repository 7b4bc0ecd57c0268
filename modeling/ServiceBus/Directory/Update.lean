import ServiceBus.Peer

/-!
# Peer updates

Whenever an event of the directory has been applied, those who follow the directory hear which peer
it was about and what became of the peer.
-/

set_option autoImplicit false

namespace ServiceBus.Directory

/-- What became of a peer. -/
inductive Action
  | started
  | stopped
  | decommissioned
  | updated
deriving DecidableEq, Repr, Inhabited

namespace Action

/-- The name of an action. -/
def name : Action → String
  | started => "Started"
  | stopped => "Stopped"
  | decommissioned => "Decommissioned"
  | updated => "Updated"

/-- The action of a name. -/
def ofName? (name : String) : Option Action :=
  [started, stopped, decommissioned, updated].find? fun a ↦ a.name = name

end Action

/-- What is heard about a peer. -/
structure Update where
  /-- The peer. -/
  peer : PeerId
  /-- What became of it. -/
  action : Action
deriving DecidableEq, Repr, Inhabited

end ServiceBus.Directory
