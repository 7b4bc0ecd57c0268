/-!
# Peers

A peer has an id, and a state that others can see change: its end point, whether it is up and
whether it responds.  Whoever holds a peer sees those changes, so a peer is passed around as a
*reference* and its state is kept once, in a `Roster`.  Two references are to the same peer
instance when they have the same slot; the id is fixed for the life of an instance and travels with
the reference.
-/

set_option autoImplicit false

namespace ServiceBus

/-- The id of a peer. -/
structure PeerId where
  /-- The id as text. -/
  text : String
deriving DecidableEq, Repr, Inhabited

namespace PeerId

/-- What the ids of directory servers start with. -/
def directoryStem : String := "Bus.DirectoryService."

/-- What the ids of persistence servers start with. -/
def persistenceStem : String := "Bus.PersistenceService."

/-- The id of the directory server configured at an index. -/
def directory (index : Nat) : PeerId := ⟨directoryStem ++ toString index⟩

/-- The id of an instance of the persistence service. -/
def persistence (instanceName : String) : PeerId := ⟨persistenceStem ++ instanceName⟩

/-- Whether the id is that of a directory server. -/
def isDirectory (id : PeerId) : Bool := directoryStem.toList.isPrefixOf id.text.toList

/-- Whether the id is that of a persistence server. -/
def isPersistence (id : PeerId) : Bool := persistenceStem.toList.isPrefixOf id.text.toList

instance : Ord PeerId := ⟨fun a b ↦ compare a.text b.text⟩

end PeerId

/-- What can change about a peer. -/
structure Contact where
  /-- Where the peer is reached. -/
  endPoint : String
  /-- The peer has started and not stopped. -/
  up : Bool := true
  /-- The peer answers. -/
  responding : Bool := true
deriving DecidableEq, Repr, Inhabited

/-- A peer as plain data: what is known of it at one moment. -/
structure Peer where
  /-- The id. -/
  id : PeerId
  /-- The state at that moment. -/
  contact : Contact
deriving DecidableEq, Repr, Inhabited

namespace Peer

/-- A peer that is up and responding. -/
def live (id : PeerId) (endPoint : String) : Peer := ⟨id, { endPoint }⟩

/-- The peer as `id@end point`. -/
def address (p : Peer) : String := p.id.text ++ "@" ++ p.contact.endPoint

/-- Addresses in a row, with a comma and a blank between each two. -/
def addresses (ps : List Peer) : String := ", ".intercalate (ps.map address)

end Peer

/-- A reference to a peer instance. -/
structure PeerRef where
  /-- The id of the instance, which never changes. -/
  id : PeerId
  /-- Where its state is kept. -/
  slot : Nat
deriving DecidableEq, Repr, Inhabited

/-- The current states of all peer instances. -/
structure Roster where
  /-- The state of the instance in each slot. -/
  cells : Array Contact := #[]
deriving Inhabited

namespace Roster

/-- Makes a new instance. -/
def add (r : Roster) (p : Peer) : PeerRef × Roster :=
  (⟨p.id, r.cells.size⟩, ⟨r.cells.push p.contact⟩)

/-- The state of an instance. -/
def contact (r : Roster) (p : PeerRef) : Contact := r.cells[p.slot]?.getD default

/-- What is known of an instance now. -/
def peer (r : Roster) (p : PeerRef) : Peer := ⟨p.id, r.contact p⟩

/-- Changes the state of an instance. -/
def modify (r : Roster) (p : PeerRef) (f : Contact → Contact) : Roster :=
  ⟨r.cells.modify p.slot f⟩

/-- Sets the state of an instance. -/
def set (r : Roster) (p : PeerRef) (c : Contact) : Roster := r.modify p fun _ ↦ c

/-- Makes a new instance with the present state of another. -/
def detach (r : Roster) (p : PeerRef) : PeerRef × Roster := r.add (r.peer p)

/-- Whether the instance is up and responding. -/
def isLive (r : Roster) (p : PeerRef) : Bool := (r.contact p).up && (r.contact p).responding

/-- Two references are equal as peers when they are to one instance, or to instances with equal
ids and states. -/
def sameRecord (r : Roster) (p q : PeerRef) : Bool := p.slot = q.slot || r.peer p = r.peer q

/-- The reference points at a state. -/
def Valid (r : Roster) (p : PeerRef) : Prop := p.slot < r.cells.size

theorem contact_set_self {r : Roster} {p : PeerRef} (h : r.Valid p) (c : Contact) :
    (r.set p c).contact p = c := by
  unfold Valid at h
  simp [contact, set, modify, Array.getElem_modify, h]

theorem contact_modify_of_ne (r : Roster) {p q : PeerRef} (h : p.slot ≠ q.slot)
    (f : Contact → Contact) : (r.modify p f).contact q = r.contact q := by
  simp [contact, modify, Array.getElem?_modify, h]

end Roster

end ServiceBus
