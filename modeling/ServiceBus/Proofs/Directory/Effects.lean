import ServiceBus.Proofs.Directory.Runs

/-!
# What a deed does to the interests of each peer

A deed is about one peer, its subject.  What the subject asks for afterwards is said by
`Deed.interestsAfter`, which looks at nothing but what was known of the subject; every other peer
asks for what it asked for before, except that a restart forgets it.

`Registry.Follows.interests?_perform` says that this is all that a deed does to interests, so
whatever is to be shown of the interests of one peer along a run need not look at registries again.
-/

set_option autoImplicit false

namespace ServiceBus.Directory

namespace Deed

/-- What a peer asks for after a descriptor of it came in, given what was known of it. -/
def learnedInterests (m? : Option Member) (d : Descriptor Peer) : Interests :=
  match m? with
  | some m =>
    if Instant.isStale m.timestamp d.timestamp then m.interests
    else (m.interests.replace d.subscriptions d.timestamp).1
  | none => (Interests.empty.replace d.subscriptions d.timestamp).1

/-- What the peer of an event asks for after it, given what was known of the peer; nothing is left
of a peer that is unknown then. -/
def appliedInterests (m? : Option Member) : Event → Option Interests
  | .started b => some (learnedInterests m? b.descriptor)
  | .subscriptionsUpdated b => some (learnedInterests m? b.descriptor)
  | .decommissioned _ => none
  | .subscriptionsAdded b =>
    m?.map fun m ↦ (m.interests.setAll true b.timestamp b.subscriptions).1
  | .subscriptionsRemoved b =>
    m?.map fun m ↦ (m.interests.setAll false b.timestamp b.subscriptions).1
  | .subscriptionsForTypesUpdated b =>
    m?.map fun m ↦ (m.interests.replaceTypes b.timestamp b.interests).1
  | .stopped _ => m?.map Member.interests
  | .notResponding _ => m?.map Member.interests
  | .responding _ => m?.map Member.interests

/-- What the subject asks for afterwards, given what was known of it. -/
def interestsAfter (m? : Option Member) : Deed → Option Interests
  | restart self => some (Interests.empty.replace self.subscriptions self.timestamp).1
  | learn d => some (learnedInterests m? d)
  | apply e => appliedInterests m? e
  | replace _ ss timestamp => m?.map fun m ↦ (m.interests.replace ss timestamp).1

/-- All peers but the subject are forgotten. -/
def forgets : Deed → Bool
  | restart _ => true
  | _ => false

end Deed

namespace Registry

/-- What a known peer asks for, or asked for once. -/
def interests? (r : Registry) (id : PeerId) : Option Interests :=
  (r.members.find? id).map Member.interests

theorem interests?_of_known {r : Registry} {id : PeerId} {m : Member}
    (h : r.members.find? id = some m) : r.interests? id = some m.interests := by
  rw [interests?, h]
  rfl

theorem interests?_eq_none_iff {r : Registry} {id : PeerId} :
    r.interests? id = none ↔ r.members.find? id = none :=
  Option.map_eq_none_iff

/-- What leaves all interests as they are leaves those of one peer as they are. -/
theorem interests?_same (r : Registry) (id id' : PeerId) :
    r.interests? id =
      if id = id' then (r.members.find? id').map Member.interests else r.interests? id := by
  split
  · next hid => rw [hid, interests?]
  · rfl

/-- Whoever is unknown has no interests to be changed. -/
theorem interests?_of_unknown {r : Registry} {id' : PeerId} (h : r.members.find? id' = none)
    (id : PeerId) : r.interests? id = if id = id' then none else r.interests? id := by
  rw [← Option.map_none Member.interests, ← h]
  exact interests?_same r id id'

theorem asks_eq_any_interests? (r : Registry) (id : PeerId) (s : Subscription) :
    r.asks id s = (r.interests? id).any fun i ↦ i.isEnabled s := by
  rw [asks, interests?, Option.any_map]

theorem interests?_put (r : Registry) (m : Member) (changed : Interests × List Change)
    (id : PeerId) :
    (r.put m changed).interests? id =
      if id = m.peer.id then some changed.1 else r.interests? id := by
  rw [interests?, put]
  dsimp only
  rw [Table.find?_insert]
  split <;> rfl

theorem interests?_restart (r : Registry) (self : Descriptor PeerRef) (id : PeerId) :
    (r.restart self).interests? id =
      if id = self.peer.id then
        some (Interests.empty.replace self.subscriptions self.timestamp).1
      else none :=
  interests?_put ..

namespace Follows

variable {r : Registry} {l : Chronicle}

/-- A known peer is put anew under its own id. -/
theorem interests?_putKnown (h : r.Follows l) {id' : PeerId} {m : Member}
    (hm : r.members.find? id' = some m) (m' : Member) (hpeer : m'.peer = m.peer)
    (changed : Interests × List Change) (id : PeerId) :
    (r.put m' changed).interests? id = if id = id' then some changed.1 else r.interests? id := by
  rw [interests?_put, hpeer, h.own _ _ hm]

theorem interests?_learn (h : r.Follows l) (d : Descriptor Peer) (refresh : Bool) (id : PeerId) :
    (r.learn d refresh).1.interests? id =
      if id = d.peer.id then some (Deed.learnedInterests (r.members.find? d.peer.id) d)
      else r.interests? id := by
  rw [Registry.learn]
  cases hm : r.members.find? d.peer.id with
  | none => exact interests?_put ..
  | some m =>
    dsimp only [Deed.learnedInterests]
    split
    · split
      · next hid => rw [hid, interests?_of_known hm]
      · rfl
    · cases refresh with
      | true =>
        simp only [if_true]
        have hroster := h.withRoster (r.roster.set m.peer d.peer.contact)
        exact hroster.interests?_putKnown hm _ (by rfl) _ id
      | false => exact h.interests?_putKnown hm _ (by rfl) _ id

theorem interests?_amendInterests (h : r.Follows l) (id' : PeerId) (type : MessageType)
    (change : Interests → Interests × List Change) (id : PeerId) :
    (r.amendInterests id' type change).1.interests? id =
      if id = id' then (r.members.find? id').map fun m ↦ (change m.interests).1
      else r.interests? id := by
  rw [Registry.amendInterests, amend]
  cases hm : r.members.find? id' with
  | some m => exact h.interests?_putKnown hm m rfl _ id
  | none => exact interests?_of_unknown hm id

theorem interests?_setResponding (r : Registry) (id' : PeerId) (type : MessageType)
    (responding : Bool) (id : PeerId) :
    (r.setResponding id' type responding).1.interests? id = r.interests? id := by
  rw [Registry.setResponding, amend]
  cases r.members.find? id' <;> rfl

theorem interests?_stop (r : Registry) (b : Stopped) (id : PeerId) :
    (r.apply (.stopped b)).1.interests? id = r.interests? id := by
  rw [Registry.apply, amend]
  cases hm : r.members.find? b.peer with
  | none => rfl
  | some m =>
    dsimp only
    split
    · rfl
    · rw [interests?]
      dsimp only
      rw [Table.find?_insert]
      split
      · next hid => rw [hid, interests?_of_known hm]; rfl
      · rfl

theorem interests?_decommission (r : Registry) (b : Decommissioned) (id : PeerId) :
    (r.apply (.decommissioned b)).1.interests? id =
      if id = b.peer then none else r.interests? id := by
  rw [Registry.apply, amend]
  cases hm : r.members.find? b.peer with
  | none => exact interests?_of_unknown hm id
  | some m =>
    rw [interests?]
    dsimp only
    rw [Table.find?_erase]
    split <;> rfl

theorem interests?_apply (h : r.Follows l) (e : Event) (id : PeerId) :
    (r.apply e).1.interests? id =
      if id = e.peer then Deed.appliedInterests (r.members.find? e.peer) e
      else r.interests? id := by
  cases e with
  | started b => exact h.interests?_learn b.descriptor true id
  | subscriptionsUpdated b => exact h.interests?_learn b.descriptor false id
  | subscriptionsAdded b => exact h.interests?_amendInterests b.peer _ _ id
  | subscriptionsRemoved b => exact h.interests?_amendInterests b.peer _ _ id
  | subscriptionsForTypesUpdated b => exact h.interests?_amendInterests b.peer _ _ id
  | stopped b => exact (interests?_stop r b id).trans (interests?_same r id b.peer)
  | decommissioned b => exact interests?_decommission r b id
  | notResponding b =>
    exact (interests?_setResponding r b.peer _ false id).trans (interests?_same r id b.peer)
  | responding b =>
    exact (interests?_setResponding r b.peer _ true id).trans (interests?_same r id b.peer)

theorem interests?_replaceInterests (h : r.Follows l) (id' : PeerId) (ss : List Subscription)
    (timestamp : Option Instant) (id : PeerId) :
    (r.replaceInterests id' ss timestamp).interests? id =
      if id = id' then (r.members.find? id').map fun m ↦ (m.interests.replace ss timestamp).1
      else r.interests? id := by
  rw [Registry.replaceInterests]
  cases hm : r.members.find? id' with
  | some m => exact h.interests?_putKnown hm _ (by rfl) _ id
  | none => exact interests?_of_unknown hm id

/-- **What a deed does to the interests of each peer.** -/
theorem interests?_perform (h : r.Follows l) (deed : Deed) (id : PeerId) :
    (deed.perform r).interests? id =
      if id = deed.subject then deed.interestsAfter (r.members.find? deed.subject)
      else if deed.forgets then none else r.interests? id := by
  cases deed with
  | restart self => exact interests?_restart r self id
  | learn d => exact h.interests?_learn d true id
  | apply e => exact h.interests?_apply e id
  | replace id' ss timestamp => exact h.interests?_replaceInterests id' ss timestamp id

end Follows

end Registry

end ServiceBus.Directory
