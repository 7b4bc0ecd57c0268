import ServiceBus.Directory.View
import ServiceBus.Rotation

/-!
# Routing

A command goes to one of the peers that handle it, and they take turns; an event goes to all of them.
-/

set_option autoImplicit false

namespace ServiceBus

open Directory

/-- What routing remembers: whose turn it is. -/
structure Router where
  /-- Whose turn it is. -/
  rotation : Rotation := {}

namespace Router

/-- The peer that a command goes to. -/
def commandTarget (r : Router) (v : View) (topic : Topic) :
    Option PeerRef × Router × List Notice :=
  let (target, rotation) := r.rotation.pick v.roster.isLive topic.type (v.handlers topic)
  (target, { r with rotation }, if target.isNone then [.noHandler topic] else [])

/-- The peers that an event goes to. -/
def eventTargets (v : View) (topic : Topic) : List PeerRef := v.handlers topic

end Router

end ServiceBus
