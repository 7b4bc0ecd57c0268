import ServiceBus.Directory.Protocol
import ServiceBus.Instant
import ServiceBus.Table

/-!
# What a peer asks for

The interests of a peer are all the subscriptions that it ever announced, each with its *status*:
whether it is enabled, and since when.  A subscription that was given up stays as a disabled one, so
that a late announcement which is older than the giving up does not bring it back.  Such remains are
cleared when the whole set is replaced.

An announcement is *rejected* when what is known is newer, or when it says what is known.  Every
operation gives, beside the new interests, the changes that were accepted, in their order; they are
what the index of subscribers has to follow.
-/

set_option autoImplicit false

namespace ServiceBus.Directory

/-- The status of a subscription. -/
structure Status where
  /-- The peer asks for it now. -/
  enabled : Bool
  /-- Since when that holds, if it is known. -/
  timestamp : Option Instant
deriving DecidableEq

/-- A subscription that is enabled now, or disabled now. -/
structure Change where
  /-- The subscription. -/
  subscription : Subscription
  /-- It is enabled now. -/
  enabled : Bool
deriving DecidableEq

/-- All subscriptions that a peer ever announced. -/
structure Interests where
  /-- The status of each. -/
  statuses : Table Subscription Status := .empty

namespace Interests

/-- No subscription. -/
def empty : Interests := {}

/-- Announces the status of one subscription.  To disable what was never announced leaves a trace,
but changes nothing that an index follows. -/
def set (i : Interests) (s : Subscription) (enabled : Bool) (timestamp : Option Instant) :
    Interests × List Change :=
  match i.statuses.find? s with
  | some status =>
    if Instant.isStale status.timestamp timestamp ∨ status.enabled = enabled then (i, [])
    else (⟨i.statuses.insert s ⟨enabled, timestamp⟩⟩, [⟨s, enabled⟩])
  | none => (⟨i.statuses.insert s ⟨enabled, timestamp⟩⟩, if enabled then [⟨s, true⟩] else [])

/-- Announces the status of several subscriptions, one after the other. -/
def setAll (enabled : Bool) (timestamp : Option Instant) :
    Interests → List Subscription → Interests × List Change
  | i, [] => (i, [])
  | i, s :: ss =>
    let (i, changes) := i.set s enabled timestamp
    let (i, changes') := setAll enabled timestamp i ss
    (i, changes ++ changes')

/-- Announces subscriptions that were not announced before; the others stay as they are. -/
def enableNew (timestamp : Option Instant) :
    Interests → List Subscription → Interests × List Change
  | i, [] => (i, [])
  | i, s :: ss =>
    if i.statuses.contains s then enableNew timestamp i ss
    else
      let (i, changes) := i.set s true timestamp
      let (i, changes') := enableNew timestamp i ss
      (i, changes ++ changes')

/-- The interests without what was given up. -/
def withoutRemains (i : Interests) : Interests := ⟨i.statuses.filter fun _ status ↦ status.enabled⟩

/-- Replaces the whole set: what was given up before is forgotten, what is not in the new set is
disabled, and what is new is enabled. -/
def replace (i : Interests) (ss : List Subscription) (timestamp : Option Instant) :
    Interests × List Change :=
  let kept := i.withoutRemains
  let gone := kept.statuses.keys.filter fun s ↦ s ∉ ss
  let (i, changes) := kept.setAll false timestamp gone
  let (i, changes') := i.enableNew timestamp ss
  (i, changes ++ changes')

/-- The enabled subscriptions to a type that are not in a list. -/
def enabledBut (i : Interests) (type : MessageType) (ss : List Subscription) :
    List Subscription :=
  (i.statuses.filter fun s status ↦ status.enabled && s.type = type && s ∉ ss).keys

/-- Replaces the subscriptions to one type. -/
def replaceType (i : Interests) (interest : TypeInterest) (timestamp : Option Instant) :
    Interests × List Change :=
  let ss := interest.subscriptions
  let (i, changes) := i.setAll false timestamp (i.enabledBut interest.type ss)
  let (i, changes') := i.setAll true timestamp ss
  (i, changes ++ changes')

/-- Replaces the subscriptions to several types, one after the other. -/
def replaceTypes (timestamp : Option Instant) :
    Interests → List TypeInterest → Interests × List Change
  | i, [] => (i, [])
  | i, interest :: rest =>
    let (i, changes) := i.replaceType interest timestamp
    let (i, changes') := replaceTypes timestamp i rest
    (i, changes ++ changes')

/-- Whether a subscription is enabled. -/
def isEnabled (i : Interests) (s : Subscription) : Bool := (i.statuses.find? s).any Status.enabled

/-- The subscriptions that are enabled, in the order in which they are listed. -/
def enabled (i : Interests) : List Subscription :=
  i.withoutRemains.statuses.keys.mergeSort Subscription.listedBefore

/-- What an index has to follow when the peer goes. -/
def withdrawal (i : Interests) : List Change :=
  i.withoutRemains.statuses.keys.map fun s ↦ ⟨s, false⟩

end Interests

end ServiceBus.Directory
