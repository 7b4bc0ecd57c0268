import ServiceBus.Envelope

/-!
# The protocol of the directory

A peer speaks to a directory server by three commands, and hears nine kinds of events from it.  None
of these messages is kept by the persistence service.

`Event.ofEnvelope?` reads an event from an envelope by the name of its type.
-/

set_option autoImplicit false

namespace ServiceBus.Directory

/-- The full name of a message type of the directory. -/
def messageType (name : String) : MessageType := ⟨"Bus.Directory." ++ name⟩

/-! ## Commands -/

/-- Asks to be registered. -/
structure Register where
  /-- The peer that asks. -/
  descriptor : Descriptor Peer
deriving DecidableEq

/-- The answer to a registration: every peer that the directory knows. -/
structure Registered where
  /-- The peers. -/
  descriptors : List (Descriptor Peer)
deriving DecidableEq

/-- Asks to be taken out. -/
structure Unregister where
  /-- The peer that asks. -/
  peer : PeerId
  /-- Where it was reached. -/
  endPoint : Option String
  /-- When it asked. -/
  timestamp : Option Instant
deriving DecidableEq

/-- Tells the subscriptions that a peer has from now on. -/
structure UpdateSubscriptions where
  /-- The peer. -/
  peer : PeerId
  /-- All of its subscriptions. -/
  subscriptions : List Subscription
  /-- When it told so. -/
  timestamp : Option Instant
deriving DecidableEq

/-! ## Events -/

/-- A peer has started. -/
structure Started where
  /-- The peer. -/
  descriptor : Descriptor Peer
deriving DecidableEq

/-- A peer has stopped. -/
structure Stopped where
  /-- The peer. -/
  peer : PeerId
  /-- Where it was reached. -/
  endPoint : Option String
  /-- When it stopped. -/
  timestamp : Option Instant
deriving DecidableEq

/-- A peer is gone for good. -/
structure Decommissioned where
  /-- The peer. -/
  peer : PeerId
deriving DecidableEq

/-- A peer has other subscriptions now. -/
structure SubscriptionsUpdated where
  /-- The peer, with all of its subscriptions. -/
  descriptor : Descriptor Peer
deriving DecidableEq

/-- A peer has subscribed. -/
structure SubscriptionsAdded where
  /-- The peer. -/
  peer : PeerId
  /-- What it subscribed to. -/
  subscriptions : List Subscription
  /-- When it did. -/
  timestamp : Option Instant
deriving DecidableEq

/-- A peer has given up subscriptions. -/
structure SubscriptionsRemoved where
  /-- The peer. -/
  peer : PeerId
  /-- What it gave up. -/
  subscriptions : List Subscription
  /-- When it did. -/
  timestamp : Option Instant
deriving DecidableEq

/-- All the patterns that a peer has for one message type. -/
structure TypeInterest where
  /-- The message type. -/
  type : MessageType
  /-- The patterns. -/
  patterns : List Key
deriving DecidableEq

/-- The subscriptions that these patterns make. -/
def TypeInterest.subscriptions (i : TypeInterest) : List Subscription :=
  i.patterns.map fun pattern ↦ ⟨i.type, pattern⟩

/-- A peer has other subscriptions to some message types. -/
structure SubscriptionsForTypesUpdated where
  /-- The peer. -/
  peer : PeerId
  /-- What it subscribes to, for each message type that is affected. -/
  interests : List TypeInterest
  /-- When this began. -/
  timestamp : Option Instant
deriving DecidableEq

/-- A peer does not answer. -/
structure NotResponding where
  /-- The peer. -/
  peer : PeerId
deriving DecidableEq

/-- A peer answers again. -/
structure Responding where
  /-- The peer. -/
  peer : PeerId
  /-- Since when it does. -/
  timestamp : Option Instant
deriving DecidableEq

/-! ## Names and wire forms -/

instance : Message Register where
  toJsonForm := .ofPart "peer" Register.descriptor Register.mk
  type := messageType "RegisterPeerCommand"
  persistent := false
  infrastructure := true

instance : Message Registered where
  toJsonForm := .ofPart "peer_descriptors" Registered.descriptors Registered.mk
  type := messageType "RegisterPeerResponse"
  persistent := false
  infrastructure := true

instance : Message Unregister where
  toJsonForm := .ofParts₃ "peer_id" "peer_end_point" "timestamp_utc"
    (fun m ↦ (m.peer, m.endPoint, m.timestamp)) Unregister.mk
  type := messageType "UnregisterPeerCommand"
  persistent := false
  infrastructure := true

instance : Message UpdateSubscriptions where
  toJsonForm := .ofParts₃ "peer_id" "subscriptions" "timestamp_utc"
    (fun m ↦ (m.peer, m.subscriptions, m.timestamp)) UpdateSubscriptions.mk
  type := messageType "UpdatePeerSubscriptionsCommand"
  persistent := false
  infrastructure := true

instance : Message Started where
  toJsonForm := .ofPart "peer_descriptor" Started.descriptor Started.mk
  type := messageType "PeerStarted"
  persistent := false
  infrastructure := true

instance : Message Stopped where
  toJsonForm := .ofParts₃ "peer_id" "peer_end_point" "timestamp_utc"
    (fun m ↦ (m.peer, m.endPoint, m.timestamp)) Stopped.mk
  type := messageType "PeerStopped"
  persistent := false
  infrastructure := true

instance : Message Decommissioned where
  toJsonForm := .ofPart "peer_id" Decommissioned.peer Decommissioned.mk
  type := messageType "PeerDecommissioned"
  persistent := false
  infrastructure := true

instance : Message SubscriptionsUpdated where
  toJsonForm := .ofPart "peer_descriptor" SubscriptionsUpdated.descriptor SubscriptionsUpdated.mk
  type := messageType "PeerSubscriptionsUpdated"
  persistent := false
  infrastructure := true

instance : Message SubscriptionsAdded where
  toJsonForm := .ofParts₃ "peer_id" "subscriptions" "timestamp_utc"
    (fun m ↦ (m.peer, m.subscriptions, m.timestamp)) SubscriptionsAdded.mk
  type := messageType "PeerSubscriptionsAdded"
  persistent := false
  infrastructure := true

instance : Message SubscriptionsRemoved where
  toJsonForm := .ofParts₃ "peer_id" "subscriptions" "timestamp_utc"
    (fun m ↦ (m.peer, m.subscriptions, m.timestamp)) SubscriptionsRemoved.mk
  type := messageType "PeerSubscriptionsRemoved"
  persistent := false
  infrastructure := true

instance : JsonForm TypeInterest :=
  .ofParts₂ "message_type_id" "binding_keys" (fun i ↦ (i.type, i.patterns)) TypeInterest.mk

instance : Message SubscriptionsForTypesUpdated where
  toJsonForm := .ofParts₃ "peer_id" "subscriptions_for_type" "timestamp_utc"
    (fun m ↦ (m.peer, m.interests, m.timestamp)) SubscriptionsForTypesUpdated.mk
  type := messageType "PeerSubscriptionsForTypesUpdated"
  persistent := false
  infrastructure := true

instance : Message NotResponding where
  toJsonForm := .ofPart "peer_id" NotResponding.peer NotResponding.mk
  type := messageType "PeerNotResponding"
  persistent := false
  infrastructure := true

instance : Message Responding where
  toJsonForm := .ofParts₂ "peer_id" "timestamp_utc" (fun m ↦ (m.peer, m.timestamp)) Responding.mk
  type := messageType "PeerResponding"
  persistent := false
  infrastructure := true

/-! ## Events of any kind -/

/-- An event of the directory. -/
inductive Event
  | started (body : Started)
  | stopped (body : Stopped)
  | decommissioned (body : Decommissioned)
  | subscriptionsUpdated (body : SubscriptionsUpdated)
  | subscriptionsAdded (body : SubscriptionsAdded)
  | subscriptionsRemoved (body : SubscriptionsRemoved)
  | subscriptionsForTypesUpdated (body : SubscriptionsForTypesUpdated)
  | notResponding (body : NotResponding)
  | responding (body : Responding)
deriving DecidableEq

namespace Event

/-- The peer that the event is about. -/
def peer : Event → PeerId
  | started body => body.descriptor.peer.id
  | stopped body => body.peer
  | decommissioned body => body.peer
  | subscriptionsUpdated body => body.descriptor.peer.id
  | subscriptionsAdded body => body.peer
  | subscriptionsRemoved body => body.peer
  | subscriptionsForTypesUpdated body => body.peer
  | notResponding body => body.peer
  | responding body => body.peer

/-- The type of the message that brings the event. -/
def type : Event → MessageType
  | started _ => Message.type Started
  | stopped _ => Message.type Stopped
  | decommissioned _ => Message.type Decommissioned
  | subscriptionsUpdated _ => Message.type SubscriptionsUpdated
  | subscriptionsAdded _ => Message.type SubscriptionsAdded
  | subscriptionsRemoved _ => Message.type SubscriptionsRemoved
  | subscriptionsForTypesUpdated _ => Message.type SubscriptionsForTypesUpdated
  | notResponding _ => Message.type NotResponding
  | responding _ => Message.type Responding

/-- The body of the message that brings the event. -/
def body : Event → Json
  | started body => JsonForm.write body
  | stopped body => JsonForm.write body
  | decommissioned body => JsonForm.write body
  | subscriptionsUpdated body => JsonForm.write body
  | subscriptionsAdded body => JsonForm.write body
  | subscriptionsRemoved body => JsonForm.write body
  | subscriptionsForTypesUpdated body => JsonForm.write body
  | notResponding body => JsonForm.write body
  | responding body => JsonForm.write body

/-- The event in an envelope: none if its type is not that of an event. -/
def ofEnvelope? (e : Envelope) : Except Failure (Option Event) :=
  if e.is Started then (e.decode Started).map fun b ↦ some (started b)
  else if e.is Stopped then (e.decode Stopped).map fun b ↦ some (stopped b)
  else if e.is Decommissioned then (e.decode Decommissioned).map fun b ↦ some (decommissioned b)
  else if e.is SubscriptionsUpdated then
    (e.decode SubscriptionsUpdated).map fun b ↦ some (subscriptionsUpdated b)
  else if e.is SubscriptionsAdded then
    (e.decode SubscriptionsAdded).map fun b ↦ some (subscriptionsAdded b)
  else if e.is SubscriptionsRemoved then
    (e.decode SubscriptionsRemoved).map fun b ↦ some (subscriptionsRemoved b)
  else if e.is SubscriptionsForTypesUpdated then
    (e.decode SubscriptionsForTypesUpdated).map fun b ↦ some (subscriptionsForTypesUpdated b)
  else if e.is NotResponding then (e.decode NotResponding).map fun b ↦ some (notResponding b)
  else if e.is Responding then (e.decode Responding).map fun b ↦ some (responding b)
  else .ok none

end Event

end ServiceBus.Directory
