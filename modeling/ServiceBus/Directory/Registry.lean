import ServiceBus.Directory.Index
import ServiceBus.Notice

/-!
# The registry

The registry is what a client knows of the directory: the peers, each with its interests, and the
index of subscribers that the interests make.  It is fed by descriptors, which tell all about a peer,
and by events, which tell what has changed.

A peer that is known keeps its instance until it is decommissioned, so that whoever holds the peer
sees it stop and start.  What is older than the known state of a peer is passed over, except that it
responds or does not: that is taken as it comes.
-/

set_option autoImplicit false

namespace ServiceBus.Directory

/-- A peer that is known. -/
structure Member where
  /-- The instance. -/
  peer : PeerRef
  /-- Messages are kept for it while it is away. -/
  persistent : Bool
  /-- Since when its state holds, if that is known. -/
  timestamp : Option Instant
  /-- A debugger is attached to it. -/
  debugged : Bool
  /-- What it asks for. -/
  interests : Interests := .empty

/-- The descriptor of a known peer. -/
def Member.descriptor (m : Member) : Descriptor PeerRef where
  peer := m.peer
  subscriptions := m.interests.enabled
  persistent := m.persistent
  timestamp := m.timestamp
  debugged := m.debugged

/-- What a client knows of the directory. -/
structure Registry where
  /-- The states of all instances. -/
  roster : Roster := {}
  /-- The peers. -/
  members : Table PeerId Member := .empty
  /-- The subscribers of each message type. -/
  index : Index := {}

namespace Registry

/-! ## Questions -/

/-- The instance of a known peer. -/
def peer? (r : Registry) (id : PeerId) : Option PeerRef := (r.members.find? id).map Member.peer

/-- The descriptor of a known peer. -/
def descriptor? (r : Registry) (id : PeerId) : Option (Descriptor PeerRef) :=
  (r.members.find? id).map Member.descriptor

/-- The descriptors of all known peers, by id. -/
def descriptors (r : Registry) : List (Descriptor PeerRef) :=
  (r.members.values.map Member.descriptor).mergeSort fun d d' ↦
    (compare d.peer.id d'.peer.id).isLE

/-- Whether messages are kept for a peer. -/
def isPersistent (r : Registry) (id : PeerId) : Bool :=
  (r.members.find? id).any Member.persistent

/-- The peers that ask for messages of a topic. -/
def handlers (r : Registry) (topic : Topic) : List PeerRef := r.index.handlers topic

/-! ## Changes -/

/-- Puts a member and lets the index follow the changes of its interests. -/
def put (r : Registry) (m : Member) (changed : Interests × List Change) : Registry :=
  { r with
    members := r.members.insert m.peer.id { m with interests := changed.1 }
    index := r.index.followAll m.peer changed.2 }

/-- Takes a new peer in. -/
def addMember (r : Registry) (peer : PeerRef) (d : Descriptor PeerRef) : Registry :=
  let m : Member := ⟨peer, d.persistent, d.timestamp, d.debugged, .empty⟩
  r.put m (m.interests.replace d.subscriptions d.timestamp)

/-- Forgets all peers but the given one, which is known by its own instance. -/
def restart (r : Registry) (self : Descriptor PeerRef) : Registry :=
  addMember { r with members := .empty, index := {} } self.peer self

/-- Takes a full descriptor in.  A known peer keeps its instance, which is brought up to date unless
only the subscriptions are. A new peer gets an instance of its own. -/
def learn (r : Registry) (d : Descriptor Peer) (refresh : Bool) : Registry × List Notice :=
  match r.members.find? d.peer.id with
  | some m =>
    if Instant.isStale m.timestamp d.timestamp then
      (r, [.stale d.peer.id none m.timestamp d.timestamp])
    else
      let (r, m) :=
        if refresh then
          ({ r with roster := r.roster.set m.peer d.peer.contact },
            { m with persistent := d.persistent, debugged := d.debugged })
        else (r, m)
      (r.put { m with timestamp := d.timestamp } (m.interests.replace d.subscriptions d.timestamp),
        [])
  | none =>
    let (peer, roster) := r.roster.add d.peer
    (addMember { r with roster } peer (d.withPeer peer), [])

/-- Takes the descriptors in that a directory server answered with. -/
def learnAll (r : Registry) : List (Descriptor Peer) → Registry × List Notice
  | [] => (r, [])
  | d :: ds =>
    let (r, notices) := r.learn d true
    let (r, notices') := r.learnAll ds
    (r, notices ++ notices')

/-- Takes a descriptor in that an event brought. -/
def learnFrom (r : Registry) (d : Descriptor Peer) (refresh : Bool) (action : Action) :
    Registry × List Notice :=
  let (r, notices) := r.learn d refresh
  (r, if notices.isEmpty then [.updated ⟨d.peer.id, action⟩] else notices)

/-- Changes a known peer, as an event of the given type says. -/
def amend (r : Registry) (id : PeerId) (type : MessageType)
    (change : Member → Registry × List Notice) : Registry × List Notice :=
  match r.members.find? id with
  | some m => change m
  | none => (r, [.unknownPeer id type])

/-- Changes the interests of a known peer, as an event of the given type says. -/
def amendInterests (r : Registry) (id : PeerId) (type : MessageType)
    (change : Interests → Interests × List Change) : Registry × List Notice :=
  r.amend id type fun m ↦ (r.put m (change m.interests), [.updated ⟨id, .updated⟩])

/-- A known peer responds or does not, as an event of the given type says. -/
def setResponding (r : Registry) (id : PeerId) (type : MessageType) (responding : Bool) :
    Registry × List Notice :=
  r.amend id type fun m ↦
    ({ r with roster := r.roster.modify m.peer fun c ↦ { c with responding } },
      [.updated ⟨id, .updated⟩])

/-- Applies an event, and gives the notices of what it did. -/
def apply (r : Registry) (e : Event) : Registry × List Notice :=
  match e with
  | .started b => r.learnFrom b.descriptor true .started
  | .stopped b =>
    r.amend b.peer e.type fun m ↦
      if Instant.isStale m.timestamp b.timestamp then
        (r, [.stale b.peer (some e.type) m.timestamp b.timestamp])
      else
        ({ r with
            roster := r.roster.modify m.peer fun c ↦ { c with up := false, responding := false }
            members := r.members.insert b.peer { m with timestamp := b.timestamp } },
          [.updated ⟨b.peer, .stopped⟩])
  | .decommissioned b =>
    r.amend b.peer e.type fun m ↦
      ({ r with
          members := r.members.erase b.peer
          index := r.index.followAll m.peer m.interests.withdrawal },
        [.updated ⟨b.peer, .decommissioned⟩])
  | .subscriptionsUpdated b => r.learnFrom b.descriptor false .updated
  | .subscriptionsAdded b =>
    r.amendInterests b.peer e.type fun i ↦ i.setAll true b.timestamp b.subscriptions
  | .subscriptionsRemoved b =>
    r.amendInterests b.peer e.type fun i ↦ i.setAll false b.timestamp b.subscriptions
  | .subscriptionsForTypesUpdated b =>
    r.amendInterests b.peer e.type fun i ↦ i.replaceTypes b.timestamp b.interests
  | .notResponding b => r.setResponding b.peer e.type false
  | .responding b => r.setResponding b.peer e.type true

/-- Applies events one after the other. -/
def applyAll (r : Registry) : List Event → Registry × List Notice
  | [] => (r, [])
  | e :: es =>
    let (r, notices) := r.apply e
    let (r, notices') := r.applyAll es
    (r, notices ++ notices')

/-- The registry replaces the interests of the local peer. -/
def replaceInterests (r : Registry) (id : PeerId) (ss : List Subscription)
    (timestamp : Option Instant) : Registry :=
  match r.members.find? id with
  | some m => r.put { m with timestamp } (m.interests.replace ss timestamp)
  | none => r

end Registry

end ServiceBus.Directory
