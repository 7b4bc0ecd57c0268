import ServiceBus.Subscription
import ServiceBus.Subscribers.Trie

/-!
# Subscribers of one message type

The subscribers of a message type are the peers that ask for all of its messages, and a trie of
those that ask by pattern.  `Subscribers.behind` answers a routing key with the peers that ask for
it, each id once; `Subscribers.isEmpty` says that there is nobody left.
-/

set_option autoImplicit false

namespace ServiceBus

/-- The peers subscribed to one message type. -/
structure Subscribers where
  /-- Those that ask for every message. -/
  toAll : List PeerRef := []
  /-- Those that ask by pattern. -/
  byPattern : Trie := .nil
deriving DecidableEq, Repr, Inhabited

namespace Subscribers

/-- Nobody. -/
def empty : Subscribers := {}

/-- Files a peer under a pattern; a second time changes nothing. -/
def add (s : Subscribers) (p : PeerRef) (pattern : Key) : Subscribers :=
  if pattern.isEmpty then { s with toAll := enlist p s.toAll }
  else { s with byPattern := s.byPattern.add p pattern.parts }

/-- Takes a peer out from under a pattern. -/
def remove (s : Subscribers) (p : PeerRef) (pattern : Key) : Subscribers :=
  if pattern.isEmpty then { s with toAll := delist p s.toAll }
  else { s with byPattern := s.byPattern.remove p pattern.parts }

/-- The peers to hand a message to, each id once.  A message without routing key goes to every
subscriber, whatever pattern it asked by. -/
def behind (s : Subscribers) (key : Key) : List PeerRef :=
  firstOfEachId <| s.toAll ++
    if key.isEmpty then s.byPattern.all
    else if key.joined then s.byPattern.findJoined key []
    else s.byPattern.find key.parts

/-- Nobody is subscribed. -/
def isEmpty (s : Subscribers) : Bool := s.toAll.isEmpty && s.byPattern.isEmpty

end Subscribers

end ServiceBus
