import ServiceBus.Directory.Interests
import ServiceBus.Subscribers

/-!
# The index of subscribers

For each message type the index keeps the peers that ask for messages of the type.  It follows the
changes of the interests of the peers, and it keeps no type for which nobody is left.
-/

set_option autoImplicit false

namespace ServiceBus.Directory

/-- The subscribers of each message type. -/
structure Index where
  /-- The subscribers by type. -/
  byType : Table MessageType Subscribers := .empty

namespace Index

/-- The subscribers of a type. -/
def subscribers (x : Index) (type : MessageType) : Subscribers :=
  (x.byType.find? type).getD .empty

/-- Files a peer under a subscription. -/
def add (x : Index) (p : PeerRef) (s : Subscription) : Index :=
  ⟨x.byType.insert s.type ((x.subscribers s.type).add p s.pattern)⟩

/-- Takes a peer out from under a subscription. -/
def remove (x : Index) (p : PeerRef) (s : Subscription) : Index :=
  match x.byType.find? s.type with
  | none => x
  | some subscribers =>
    let left := subscribers.remove p s.pattern
    ⟨if left.isEmpty then x.byType.erase s.type else x.byType.insert s.type left⟩

/-- Follows a change of the interests of a peer. -/
def follow (x : Index) (p : PeerRef) (c : Change) : Index :=
  if c.enabled then x.add p c.subscription else x.remove p c.subscription

/-- Follows changes one after the other. -/
def followAll (x : Index) (p : PeerRef) (cs : List Change) : Index :=
  cs.foldl (fun x c ↦ x.follow p c) x

/-- The peers that ask for messages of a topic. -/
def handlers (x : Index) (topic : Topic) : List PeerRef :=
  match x.byType.find? topic.type with
  | some subscribers => subscribers.behind topic.key
  | none => []

end Index

end ServiceBus.Directory
