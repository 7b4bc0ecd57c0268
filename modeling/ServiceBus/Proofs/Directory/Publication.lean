import ServiceBus.Proofs.Directory.FullSets
import ServiceBus.Proofs.Durable.Liaison

/-!
# What is published of an event

Those who follow the directory should hear of an event if it was applied, and not if it was passed
over.  There are two places at which an event is passed over.  The registry may know nothing of the
peer, or know something newer of the peer as a whole: then the event is *discarded*
(`Registry.discards`).  Or the event tells a part of the subscriptions, and each of its changes is
*rejected* by what is known of the one subscription (`Registry.rejects`).  In both cases everything
stays as it is.

But only the discarded events are kept quiet; of an event whose changes are all rejected an update
is published as if it had been applied.  `Situation.updates_event_run` is the account of all events.
-/

set_option autoImplicit false

namespace ServiceBus.Directory

/-! ## What an event tells -/

/-- What those who follow the directory hear of an event. -/
def Event.action : Event → Action
  | .started _ => .started
  | .stopped _ => .stopped
  | .decommissioned _ => .decommissioned
  | _ => .updated

theorem Event.exists_learnFrom {e : Event} {d : Descriptor Peer} (h : e.descriptor? = some d) :
    ∃ refresh, ∀ r : Registry, r.apply e = r.learnFrom d refresh e.action := by
  cases e with
  | started b =>
    obtain rfl := Option.some.inj h
    exact ⟨true, fun _ ↦ rfl⟩
  | subscriptionsUpdated b =>
    obtain rfl := Option.some.inj h
    exact ⟨false, fun _ ↦ rfl⟩
  | _ => cases h

/-- The event is compared with the state of its peer as a whole. -/
def Event.isGated : Event → Bool
  | .started _ | .subscriptionsUpdated _ | .stopped _ => true
  | _ => false

/-- The changes of an event that tells a part of the subscriptions of its peer, given the interests
that the peer has. -/
def Event.changes? (i : Interests) : Event → Option (List Change)
  | .subscriptionsAdded b => some (b.subscriptions.map fun s ↦ ⟨s, true⟩)
  | .subscriptionsRemoved b => some (b.subscriptions.map fun s ↦ ⟨s, false⟩)
  | .subscriptionsForTypesUpdated b =>
    some (b.interests.flatMap fun interest ↦
      (i.enabledBut interest.type interest.subscriptions).map (fun s ↦ ⟨s, false⟩) ++
        interest.subscriptions.map fun s ↦ ⟨s, true⟩)
  | _ => none

namespace Interests

/-- A change is rejected: what is known of the subscription is newer, or it is the same. -/
def rejects (i : Interests) (timestamp : Option Instant) (c : Change) : Bool :=
  (i.statuses.find? c.subscription).any fun status ↦
    Instant.isStale status.timestamp timestamp || status.enabled = c.enabled

variable {i : Interests} {timestamp : Option Instant}

theorem setAll_of_rejects {ss : List Subscription} {enabled : Bool}
    (h : ∀ s ∈ ss, i.rejects timestamp ⟨s, enabled⟩) :
    i.setAll enabled timestamp ss = (i, []) := by
  refine setAll_of_passed fun s hs ↦ ?_
  have hrejects := h s hs
  rw [rejects, Option.any_eq_true] at hrejects
  simpa using hrejects

theorem replaceTypes_of_rejects {interests : List TypeInterest}
    (h : ∀ interest ∈ interests,
      (∀ s ∈ i.enabledBut interest.type interest.subscriptions,
        i.rejects timestamp ⟨s, false⟩) ∧
      ∀ s ∈ interest.subscriptions, i.rejects timestamp ⟨s, true⟩) :
    i.replaceTypes timestamp interests = (i, []) := by
  induction interests with
  | nil => rfl
  | cons interest rest ih =>
    obtain ⟨hgone, hlisted⟩ := h interest List.mem_cons_self
    have hone : i.replaceType interest timestamp = (i, []) := by
      rw [replaceType]
      dsimp only
      rw [setAll_of_rejects hgone]
      dsimp only
      rw [setAll_of_rejects hlisted]
      rfl
    rw [replaceTypes, hone]
    dsimp only
    rw [ih fun other hother ↦ h other (List.mem_cons_of_mem _ hother)]
    rfl

end Interests

/-- Of the interests that reject all changes of an event, it makes what they are. -/
theorem Event.exists_change_of_rejects {e : Event} {i : Interests} {cs : List Change}
    (hcs : e.changes? i = some cs) (hall : ∀ c ∈ cs, i.rejects e.timestamp? c) :
    ∃ change, (∀ r : Registry, r.apply e = r.amendInterests e.peer e.type change) ∧
      change i = (i, []) := by
  cases e with
  | subscriptionsAdded b =>
    obtain rfl := Option.some.inj hcs
    exact ⟨fun i ↦ i.setAll true b.timestamp b.subscriptions, fun _ ↦ rfl,
      Interests.setAll_of_rejects (List.forall_mem_map.mp hall)⟩
  | subscriptionsRemoved b =>
    obtain rfl := Option.some.inj hcs
    exact ⟨fun i ↦ i.setAll false b.timestamp b.subscriptions, fun _ ↦ rfl,
      Interests.setAll_of_rejects (List.forall_mem_map.mp hall)⟩
  | subscriptionsForTypesUpdated b =>
    obtain rfl := Option.some.inj hcs
    refine ⟨fun i ↦ i.replaceTypes b.timestamp b.interests, fun _ ↦ rfl,
      Interests.replaceTypes_of_rejects fun interest hinterest ↦ ?_⟩
    have hone := List.forall_mem_flatMap.mp hall interest hinterest
    rw [List.forall_mem_append, List.forall_mem_map, List.forall_mem_map] at hone
    exact hone
  | _ => cases hcs

namespace Registry

/-- An event is discarded: its peer is not known and it does not bring a descriptor, or the state of
the peer as a whole is newer. -/
def discards (r : Registry) (e : Event) : Bool :=
  match r.members.find? e.peer with
  | none => e.descriptor?.isNone
  | some m => e.isGated && Instant.isStale m.timestamp e.timestamp?

/-- An event tells a part of the subscriptions of a known peer, and each of its changes is
rejected. -/
def rejects (r : Registry) (e : Event) : Bool :=
  (r.members.find? e.peer).any fun m ↦
    (e.changes? m.interests).any fun cs ↦ cs.all (m.interests.rejects e.timestamp?)

variable {r : Registry} {e : Event} {m : Member}

theorem discards_of_descriptor? {d : Descriptor Peer} (hd : e.descriptor? = some d) :
    r.discards e = !Deed.takes (r.members.find? d.peer.id) d := by
  obtain ⟨hpeer, htime, -⟩ := Event.exists_refresh hd
  have hgated : e.isGated = true := by
    cases e with
    | started b => rfl
    | subscriptionsUpdated b => rfl
    | _ => cases hd
  rw [discards, hpeer, htime, hgated, hd, Deed.takes, Bool.not_not]
  cases r.members.find? d.peer.id <;> rfl

theorem amend_of_unknown {id : PeerId} (hm : r.members.find? id = none) (type : MessageType)
    (change : Member → Registry × List Notice) :
    r.amend id type change = (r, [.unknownPeer id type]) := by
  rw [amend, hm]

theorem amend_of_known {id : PeerId} (hm : r.members.find? id = some m) (type : MessageType)
    (change : Member → Registry × List Notice) : r.amend id type change = change m := by
  rw [amend, hm]

/-- A descriptor that is taken in is published. -/
theorem notices_learnFrom_of_takes {d : Descriptor Peer}
    (h : Deed.takes (r.members.find? d.peer.id) d = true) (refresh : Bool) (action : Action) :
    (r.learnFrom d refresh action).2 = [.updated ⟨d.peer.id, action⟩] := by
  have hlearn : (r.learn d refresh).2 = [] := by
    rw [learn]
    cases hm : r.members.find? d.peer.id with
    | none => rfl
    | some m =>
      have hstale : Instant.isStale m.timestamp d.timestamp = false := by
        simpa [hm, Deed.takes] using h
      dsimp only
      rw [if_neg (by simp [hstale])]
  rw [learnFrom]
  dsimp only
  rw [hlearn]
  rfl

/-- A descriptor that is passed over is reported as stale. -/
theorem learnFrom_of_not_takes {d : Descriptor Peer}
    (h : Deed.takes (r.members.find? d.peer.id) d = false) (refresh : Bool) (action : Action) :
    ∃ known, r.learnFrom d refresh action = (r, [.stale d.peer.id none known d.timestamp]) := by
  cases hm : r.members.find? d.peer.id with
  | none => simp [hm, Deed.takes] at h
  | some m =>
    have hstale : Instant.isStale m.timestamp d.timestamp = true := by
      simpa [hm, Deed.takes] using h
    refine ⟨m.timestamp, ?_⟩
    rw [learnFrom, learn, hm]
    dsimp only
    rw [if_pos hstale]
    rfl

/-- A discarded event changes nothing, and the notice of it is not an update. -/
theorem apply_of_discards (h : r.discards e) :
    ∃ notice, r.apply e = (r, [notice]) ∧ ∀ u, notice ≠ .updated u := by
  cases hd : e.descriptor? with
  | some d =>
    obtain ⟨refresh, happly⟩ := Event.exists_learnFrom hd
    rw [discards_of_descriptor? hd, Bool.not_eq_true'] at h
    obtain ⟨known, hlearn⟩ := learnFrom_of_not_takes h refresh e.action
    exact ⟨_, (happly r).trans hlearn, nofun⟩
  | none =>
    cases hm : r.members.find? e.peer with
    | none =>
      refine ⟨.unknownPeer e.peer e.type, ?_, nofun⟩
      cases e with
      | started b => cases hd
      | subscriptionsUpdated b => cases hd
      | _ => exact amend_of_unknown hm _ _
    | some m =>
      rw [discards, hm, Bool.and_eq_true] at h
      obtain ⟨hgated, hstale⟩ := h
      cases e with
      | started b => cases hd
      | subscriptionsUpdated b => cases hd
      | stopped b => exact ⟨_, (amend_of_known hm _ _).trans (if_pos hstale), nofun⟩
      | _ => cases hgated

/-- Of any other event an update is published, and no other notice is given. -/
theorem notices_apply_of_not_discards (h : r.discards e = false) :
    (r.apply e).2 = [.updated ⟨e.peer, e.action⟩] := by
  cases hd : e.descriptor? with
  | some d =>
    obtain ⟨refresh, happly⟩ := Event.exists_learnFrom hd
    rw [discards_of_descriptor? hd, Bool.not_eq_false'] at h
    rw [happly, (Event.exists_refresh hd).1]
    exact notices_learnFrom_of_takes h refresh e.action
  | none =>
    cases hm : r.members.find? e.peer with
    | none =>
      rw [discards, hm, hd] at h
      cases h
    | some m =>
      cases e with
      | started b => cases hd
      | subscriptionsUpdated b => cases hd
      | stopped b =>
        have hstale : ¬ Instant.isStale m.timestamp b.timestamp := by
          simpa [discards, hm, Event.isGated, Event.timestamp?] using h
        have hknown : r.members.find? b.peer = some m := hm
        rw [apply, amend_of_known hknown, if_neg hstale]
        rfl
      | _ => exact congrArg Prod.snd (amend_of_known hm _ _)

/-! ## Changes that are all rejected -/

theorem put_unchanged (hm : r.members.find? m.peer.id = some m) :
    r.put m (m.interests, []) = r := by
  have hmembers : r.members.insert m.peer.id { m with interests := m.interests } = r.members :=
    Table.insert_of_find? hm
  rw [put]
  dsimp only
  rw [hmembers]
  rfl

theorem exists_of_rejects (h : r.rejects e) :
    ∃ m cs, r.members.find? e.peer = some m ∧ e.changes? m.interests = some cs ∧
      ∀ c ∈ cs, m.interests.rejects e.timestamp? c := by
  rw [rejects, Option.any_eq_true] at h
  obtain ⟨m, hm, hchanges⟩ := h
  rw [Option.any_eq_true] at hchanges
  obtain ⟨cs, hcs, hall⟩ := hchanges
  exact ⟨m, cs, hm, hcs, List.all_eq_true.mp hall⟩

/-- It is an event of a kind that is never discarded if the peer is known. -/
theorem not_discards_of_rejects (h : r.rejects e) :
    r.discards e = false ∧ e.action = .updated := by
  obtain ⟨m, cs, hm, hcs, -⟩ := exists_of_rejects h
  rw [discards, hm]
  cases e with
  | subscriptionsAdded b => exact ⟨rfl, rfl⟩
  | subscriptionsRemoved b => exact ⟨rfl, rfl⟩
  | subscriptionsForTypesUpdated b => exact ⟨rfl, rfl⟩
  | _ => cases hcs

/-- An event whose changes are all rejected changes nothing. -/
theorem Follows.apply_of_rejects {l : Chronicle} (h : r.Follows l) (hrejects : r.rejects e) :
    (r.apply e).1 = r := by
  obtain ⟨m, cs, hm, hcs, hall⟩ := exists_of_rejects hrejects
  obtain ⟨change, happly, hchange⟩ := Event.exists_change_of_rejects hcs hall
  have hown : m.peer.id = e.peer := h.own _ _ hm
  rw [happly, Registry.amendInterests, amend_of_known hm]
  dsimp only
  rw [hchange]
  exact put_unchanged (hown ▸ hm)

end Registry

namespace Situation

/-- **What is published of an event**, in every situation in which events are not held back.  An
update is published unless the event is discarded.  If it is discarded, everything stays as it is.
If its changes are all rejected, everything stays as it is too, but the update is published. -/
theorem updates_event_run (settings : Settings) (clock : Clock) (roster : Roster)
    (acts : List Act) (e : Event)
    (h : ((start settings clock roster).run acts).client.held = none) :
    let s := (start settings clock roster).run acts
    s.updates (.event e) =
      (if s.client.registry.discards e then [] else [⟨e.peer, e.action⟩]) ∧
    (s.client.registry.discards e → s.step (.event e) = s) ∧
    (s.client.registry.rejects e →
      s.step (.event e) = s ∧ s.updates (.event e) = [⟨e.peer, .updated⟩]) := by
  intro s
  have hfollows : s.client.registry.Follows _ := follows_run settings clock roster acts
  have hnotices : s.notices (.event e) = (s.client.registry.apply e).2 := by
    rw [notices, Client.handle_of_not_held h]
  have hstep : (s.client.registry.apply e).1 = s.client.registry → s.step (.event e) = s := by
    intro hsame
    rw [step, Client.handle_of_not_held h]
    dsimp only
    rw [hsame]
  have hupdates : s.updates (.event e) =
      if s.client.registry.discards e then [] else [⟨e.peer, e.action⟩] := by
    rw [updates, hnotices]
    split
    · next hdiscards =>
      obtain ⟨notice, happly, hnot⟩ := Registry.apply_of_discards hdiscards
      rw [happly]
      cases notice with
      | updated u => exact absurd rfl (hnot u)
      | _ => rfl
    · next hdiscards =>
      rw [Registry.notices_apply_of_not_discards (Bool.eq_false_iff.mpr hdiscards)]
      rfl
  refine ⟨hupdates, fun hdiscards ↦ ?_, fun hrejects ↦ ⟨?_, ?_⟩⟩
  · obtain ⟨notice, happly, -⟩ := Registry.apply_of_discards hdiscards
    exact hstep (congrArg Prod.fst happly)
  · exact hstep (hfollows.apply_of_rejects hrejects)
  · obtain ⟨hnot, haction⟩ := Registry.not_discards_of_rejects hrejects
    rw [hupdates, hnot, haction]
    rfl

/-- A peer starts ten seconds after noon with a subscription. -/
def startsAtTen : List Act := [.event (.started ⟨told [.toAll fakeEvent] 10⟩)]

/-- The peer stopped five seconds before. -/
def stoppedAtFive : Event := .stopped ⟨⟨"Abc.P.0"⟩, none, some (afterNoon 5)⟩

/-- The peer gave its subscription up five seconds before. -/
def removedAtFive : Event :=
  .subscriptionsRemoved ⟨⟨"Abc.P.0"⟩, [.toAll fakeEvent], some (afterNoon 5)⟩

/-- The news that the peer stopped is discarded. -/
theorem updates_stoppedAtFive :
    (inMarch.run startsAtTen).updates (.event stoppedAtFive) = [] ∧
    (inMarch.run startsAtTen).step (.event stoppedAtFive) = inMarch.run startsAtTen := by
  obtain ⟨hupdates, hsame, -⟩ := updates_event_run {} ⟨⟨⟨2024, 3, 1⟩, 12, 0, 0, 0, by decide⟩, []⟩
    {} startsAtTen stoppedAtFive rfl
  exact ⟨hupdates.trans (if_pos (by decide)), hsame (by decide)⟩

/-- **An update is published although nothing was applied.**  The peer has given its only
subscription up, but before it had it; that is rejected, and the peer still asks for it. -/
theorem updates_removedAtFive :
    (inMarch.run startsAtTen).client.held = none ∧
    (inMarch.run startsAtTen).client.registry.isNewer ⟨"Abc.P.0"⟩ (.toAll fakeEvent)
      removedAtFive.timestamp? = true ∧
    (inMarch.run (startsAtTen ++ [.event removedAtFive])).client.registry.asks ⟨"Abc.P.0"⟩
      (.toAll fakeEvent) = true ∧
    (inMarch.run startsAtTen).updates (.event removedAtFive) = [⟨⟨"Abc.P.0"⟩, .updated⟩] := by
  decide

end Situation

end ServiceBus.Directory
