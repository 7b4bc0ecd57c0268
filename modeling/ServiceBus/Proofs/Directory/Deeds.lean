import ServiceBus.Directory.Registry
import ServiceBus.Proofs.Directory.Changes

/-!
# What is done to a registry, and what it knows afterwards

Whatever happens to a client, its registry changes only by *deeds* of four kinds: it is restarted,
it takes a descriptor or an event in, or it replaces the interests of one peer.  `Deed.accepted`
says which changes of subscriptions a deed brings, and `Deed.record` writes them into a chronicle; a
restart begins a new one.

`Registry.Follows` is the invariant that ties a registry to its chronicle.  What the members ask for
is what the last change of each *subscription* says, and where they are filed is what the last
change of each *pattern* says.  `Follows.perform` keeps it through one deed, and
`Follows.performAll` through any number of them.
-/

set_option autoImplicit false

namespace ServiceBus.Directory

/-- Something that is done to a registry. -/
inductive Deed
  /-- All peers but the given one are forgotten. -/
  | restart (self : Descriptor PeerRef)
  /-- A directory server told of a peer. -/
  | learn (d : Descriptor Peer)
  /-- An event is applied. -/
  | apply (e : Event)
  /-- The interests of one peer are replaced. -/
  | replace (id : PeerId) (ss : List Subscription) (timestamp : Option Instant)

namespace Deed

/-- What it does. -/
def perform (r : Registry) : Deed → Registry
  | restart self => r.restart self
  | learn d => (r.learn d true).1
  | apply e => (r.apply e).1
  | replace id ss timestamp => r.replaceInterests id ss timestamp

/-- The peer that it is about. -/
def subject : Deed → PeerId
  | restart self => self.peer.id
  | learn d => d.peer.id
  | apply e => e.peer
  | replace id _ _ => id

/-- The changes that a descriptor brings, given what is known of its peer. -/
def learned (m? : Option Member) (d : Descriptor Peer) : List Change :=
  match m? with
  | some m =>
    if Instant.isStale m.timestamp d.timestamp then []
    else (m.interests.replace d.subscriptions d.timestamp).2
  | none => (Interests.empty.replace d.subscriptions d.timestamp).2

/-- The changes that an event brings, given what is known of its peer. -/
def applied (m? : Option Member) : Event → List Change
  | .started b => learned m? b.descriptor
  | .subscriptionsUpdated b => learned m? b.descriptor
  | .decommissioned _ => m?.elim [] fun m ↦ m.interests.withdrawal
  | .subscriptionsAdded b =>
    m?.elim [] fun m ↦ (m.interests.setAll true b.timestamp b.subscriptions).2
  | .subscriptionsRemoved b =>
    m?.elim [] fun m ↦ (m.interests.setAll false b.timestamp b.subscriptions).2
  | .subscriptionsForTypesUpdated b =>
    m?.elim [] fun m ↦ (m.interests.replaceTypes b.timestamp b.interests).2
  | .stopped _ => []
  | .notResponding _ => []
  | .responding _ => []

/-- The changes that it brings, given what is known of its peer. -/
def accepted (m? : Option Member) : Deed → List Change
  | restart self => (Interests.empty.replace self.subscriptions self.timestamp).2
  | learn d => learned m? d
  | apply e => applied m? e
  | replace _ ss timestamp => m?.elim [] fun m ↦ (m.interests.replace ss timestamp).2

/-- What was told before, as far as it still counts. -/
def remembered (l : Chronicle) : Deed → Chronicle
  | restart _ => .empty
  | _ => l

/-- Writes the changes that it brings into a chronicle. -/
def record (r : Registry) (l : Chronicle) (deed : Deed) : Chronicle :=
  (deed.remembered l).note deed.subject (deed.accepted (r.members.find? deed.subject))

/-- The registry after several deeds. -/
def performAll (r : Registry) (deeds : List Deed) : Registry := deeds.foldl perform r

/-- The chronicle after several deeds. -/
def recordAll : Registry → Chronicle → List Deed → Chronicle
  | _, l, [] => l
  | r, l, deed :: deeds => recordAll (deed.perform r) (deed.record r l) deeds

end Deed

namespace Registry

/-- Whether a peer is known and asks for a subscription. -/
def asks (r : Registry) (id : PeerId) (s : Subscription) : Bool :=
  (r.members.find? id).any fun m ↦ m.interests.isEnabled s

theorem asks_of_known {r : Registry} {id : PeerId} {m : Member} (h : r.members.find? id = some m)
    (s : Subscription) : r.asks id s = m.interests.isEnabled s := by
  simp [asks, h]

theorem asks_of_unknown {r : Registry} {id : PeerId} (h : r.members.find? id = none)
    (s : Subscription) : r.asks id s = false := by
  simp [asks, h]

/-- A registry knows what the chronicle tells. -/
structure Follows (r : Registry) (l : Chronicle) : Prop where
  /-- A member is kept under its own id. -/
  own : ∀ id m, r.members.find? id = some m → m.peer.id = id
  /-- The last change of a subscription decides whether it is asked for. -/
  asks_eq : ∀ id s, r.asks id s = (lastOf (l id) (fun s' ↦ s' = s)).getD false
  /-- The last change of a pattern decides who is filed under it. -/
  index : r.index.Follows l

namespace Follows

variable {r : Registry} {l : Chronicle}

/-- The states of the instances play no part. -/
theorem withRoster (h : r.Follows l) (roster : Roster) : Follows { r with roster } l :=
  ⟨h.own, h.asks_eq, h.index⟩

/-- A registry that knows nobody follows the empty chronicle. -/
theorem nobody (roster : Roster) : Follows { roster } .empty :=
  ⟨fun id m hm ↦ by simp at hm, fun id s ↦ rfl, Index.follows_empty⟩

/-- A member may be put anew if the changes tell what became of its interests. -/
theorem put (h : r.Follows l) (m : Member) {i : Interests} {cs : List Change}
    (hdescribes : ∀ s, i.isEnabled s = (lastOf cs (fun s' ↦ s' = s)).getD (r.asks m.peer.id s)) :
    (r.put m (i, cs)).Follows (l.note m.peer.id cs) := by
  refine ⟨fun id m' hm' ↦ ?_, fun id s ↦ ?_, h.index.followAll m.peer cs⟩
  · simp only [Registry.put, Table.find?_insert] at hm'
    split at hm'
    · next hid =>
      obtain rfl := Option.some.inj hm'
      exact hid.symm
    · exact h.own id m' hm'
  · rw [Chronicle.lastOf_note]
    split
    · next hid =>
      subst hid
      have hput : (r.put m (i, cs)).asks m.peer.id s = i.isEnabled s := by
        simp [Registry.put, asks, Table.find?_insert]
      rw [hput, hdescribes, h.asks_eq]
      cases lastOf cs (fun s' ↦ s' = s) <;> rfl
    · next hid =>
      have hput : (r.put m (i, cs)).asks id s = r.asks id s := by
        simp [Registry.put, asks, Table.find?_insert, hid]
      rw [hput, h.asks_eq]

/-- A known member is put anew. -/
theorem putKnown (h : r.Follows l) {id : PeerId} {m : Member}
    (hm : r.members.find? id = some m) (m' : Member) (hpeer : m'.peer = m.peer) {i : Interests}
    {cs : List Change} (hdescribes : m.interests.Describes cs i) :
    (r.put m' (i, cs)).Follows (l.note id cs) := by
  have hid : m'.peer.id = id := by rw [hpeer, h.own id m hm]
  rw [← hid]
  refine h.put m' fun s ↦ ?_
  rw [hid, asks_of_known hm]
  exact hdescribes s

/-- A new member is put. -/
theorem addMember (h : r.Follows l) (peer : PeerRef) (d : Descriptor PeerRef)
    (hnew : r.members.find? peer.id = none) :
    (r.addMember peer d).Follows
      (l.note peer.id (Interests.empty.replace d.subscriptions d.timestamp).2) := by
  refine h.put _ fun s ↦ ?_
  rw [asks_of_unknown hnew]
  exact Interests.describes_replace .empty d.subscriptions d.timestamp s

theorem restart (self : Descriptor PeerRef) (r : Registry) :
    (r.restart self).Follows (Chronicle.empty.note self.peer.id
      (Interests.empty.replace self.subscriptions self.timestamp).2) :=
  (nobody r.roster).addMember self.peer self rfl

theorem learn (h : r.Follows l) (d : Descriptor Peer) (refresh : Bool) :
    (r.learn d refresh).1.Follows
      (l.note d.peer.id (Deed.learned (r.members.find? d.peer.id) d)) := by
  rw [Registry.learn]
  cases hm : r.members.find? d.peer.id with
  | some m =>
    dsimp only [Deed.learned]
    split
    · rwa [Chronicle.note_nil]
    · cases refresh with
      | true =>
        simp only [if_true]
        refine (h.withRoster (r.roster.set m.peer d.peer.contact)).putKnown hm _ ?_
          (m.interests.describes_replace _ _)
        rfl
      | false => exact h.putKnown hm _ (by rfl) (Interests.describes_replace _ _ _)
  | none => exact (h.withRoster _).addMember _ _ hm

theorem learnFrom (h : r.Follows l) (d : Descriptor Peer) (refresh : Bool) (action : Action) :
    (r.learnFrom d refresh action).1.Follows
      (l.note d.peer.id (Deed.learned (r.members.find? d.peer.id) d)) :=
  h.learn d refresh

/-- The interests of a known peer are changed as the changes tell. -/
theorem amendInterests (h : r.Follows l) (id : PeerId) (type : MessageType)
    {change : Interests → Interests × List Change}
    (hdescribes : ∀ i : Interests, i.Describes (change i).2 (change i).1) :
    (r.amendInterests id type change).1.Follows
      (l.note id ((r.members.find? id).elim [] fun m ↦ (change m.interests).2)) := by
  rw [Registry.amendInterests, Registry.amend]
  cases hm : r.members.find? id with
  | some m => exact h.putKnown hm _ (by rfl) (hdescribes m.interests)
  | none => rwa [Option.elim_none, Chronicle.note_nil]

theorem setResponding (h : r.Follows l) (id : PeerId) (type : MessageType) (responding : Bool) :
    (r.setResponding id type responding).1.Follows l := by
  rw [Registry.setResponding, Registry.amend]
  cases r.members.find? id with
  | some m => exact h.withRoster _
  | none => exact h

/-- To stop changes nothing that a peer asks for. -/
theorem stop (h : r.Follows l) (b : Stopped) : (r.apply (.stopped b)).1.Follows l := by
  rw [Registry.apply, Registry.amend]
  cases hm : r.members.find? b.peer with
  | none => exact h
  | some m =>
    dsimp only
    split
    · exact h
    · have hput := h.putKnown hm { m with timestamp := b.timestamp } rfl (.refl m.interests)
      rw [Chronicle.note_nil, Registry.put] at hput
      rw [← h.own _ _ hm]
      exact hput.withRoster _

/-- A peer that goes leaves nothing behind. -/
theorem decommission (h : r.Follows l) (b : Decommissioned) :
    (r.apply (.decommissioned b)).1.Follows
      (l.note b.peer ((r.members.find? b.peer).elim [] fun m ↦ m.interests.withdrawal)) := by
  rw [Registry.apply, Registry.amend]
  cases hm : r.members.find? b.peer with
  | none => rwa [Option.elim_none, Chronicle.note_nil]
  | some m =>
    have hown : m.peer.id = b.peer := h.own _ _ hm
    dsimp only
    refine ⟨fun id m' hm' ↦ ?_, fun id s ↦ ?_, hown ▸ h.index.followAll m.peer _⟩
    · simp only [Table.find?_erase] at hm'
      split at hm'
      · cases hm'
      · exact h.own id m' hm'
    · rw [Chronicle.lastOf_note, Option.elim_some]
      split
      · next hid =>
        -- all that was enabled is withdrawn, and the rest was not enabled
        have hgone := Interests.describes_withdrawal m.interests s
        rw [Interests.isEnabled_empty, ← asks_of_known hm, h.asks_eq] at hgone
        subst hid
        rw [asks_of_unknown (by simp [Table.find?_erase])]
        cases hlast : lastOf m.interests.withdrawal (fun s' ↦ s' = s) with
        | none => simpa [hlast] using hgone
        | some enabled => simpa [hlast] using hgone
      · next hid =>
        rw [← h.asks_eq]
        simp [asks, Table.find?_erase, hid]

theorem apply (h : r.Follows l) (e : Event) :
    (r.apply e).1.Follows (l.note e.peer (Deed.applied (r.members.find? e.peer) e)) := by
  cases e with
  | started b => exact h.learnFrom b.descriptor true .started
  | stopped b => exact (Chronicle.note_nil l b.peer).symm ▸ h.stop b
  | decommissioned b => exact h.decommission b
  | subscriptionsUpdated b => exact h.learnFrom b.descriptor false .updated
  | subscriptionsAdded b =>
    exact h.amendInterests b.peer _ fun i ↦ i.describes_setAll true b.timestamp b.subscriptions
  | subscriptionsRemoved b =>
    exact h.amendInterests b.peer _ fun i ↦ i.describes_setAll false b.timestamp b.subscriptions
  | subscriptionsForTypesUpdated b =>
    exact h.amendInterests b.peer _ fun i ↦ i.describes_replaceTypes b.timestamp b.interests
  | notResponding b =>
    exact (Chronicle.note_nil l b.peer).symm ▸ h.setResponding b.peer _ false
  | responding b => exact (Chronicle.note_nil l b.peer).symm ▸ h.setResponding b.peer _ true

theorem replaceInterests (h : r.Follows l) (id : PeerId) (ss : List Subscription)
    (timestamp : Option Instant) :
    (r.replaceInterests id ss timestamp).Follows
      (l.note id ((r.members.find? id).elim [] fun m ↦ (m.interests.replace ss timestamp).2)) := by
  rw [Registry.replaceInterests]
  cases hm : r.members.find? id with
  | some m => exact h.putKnown hm _ (by rfl) (Interests.describes_replace _ _ _)
  | none => rwa [Option.elim_none, Chronicle.note_nil]

/-- One deed keeps registry and chronicle together. -/
theorem perform (h : r.Follows l) (deed : Deed) : (deed.perform r).Follows (deed.record r l) := by
  cases deed with
  | restart self => exact restart self r
  | learn d => exact h.learn d true
  | apply e => exact h.apply e
  | replace id ss timestamp => exact h.replaceInterests id ss timestamp

/-- **Registry and chronicle stay together**, whatever is done. -/
theorem performAll (h : r.Follows l) (deeds : List Deed) :
    (Deed.performAll r deeds).Follows (Deed.recordAll r l deeds) := by
  induction deeds generalizing r l with
  | nil => exact h
  | cons deed deeds ih => exact ih (h.perform deed)

end Follows

end Registry

end ServiceBus.Directory
