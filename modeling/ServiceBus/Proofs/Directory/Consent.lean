import ServiceBus.Proofs.Directory.Delivery
import ServiceBus.Proofs.Directory.Effects

/-!
# Nobody handles what it did not ask for

Whoever is handed a message should have asked for it.  A peer is filed under a pattern because some
subscription that writes the pattern was enabled, and the last change of the pattern is the last
change of that subscription too; so the subscription is still enabled, and whoever asks for it is
known.  `Registry.Follows.exists_subscription_of_mem_handlers` says so for every registry that
follows a chronicle.

A peer that is dropped is unknown from then on, until a descriptor of it comes in: that is
`Registry.Follows.unknown_performAll`.  `Situation.handlers_run` puts both together for every
situation that a client can get into.
-/

set_option autoImplicit false

namespace ServiceBus.Directory

namespace Deed

/-- A descriptor of the peer comes in, or the peer is the one that registers. -/
def Shows (id : PeerId) : Deed → Prop
  | restart self => self.peer.id = id
  | learn d => d.peer.id = id
  | apply (.started b) => b.descriptor.peer.id = id
  | apply (.subscriptionsUpdated b) => b.descriptor.peer.id = id
  | _ => False

/-- The peer is forgotten since another one registers, or it is decommissioned. -/
def Drops (id : PeerId) : Deed → Prop
  | restart self => self.peer.id ≠ id
  | apply (.decommissioned b) => b.peer = id
  | _ => False

/-- A deed that shows no descriptor leaves an unknown peer without interests. -/
theorem interestsAfter_of_unknown {deed : Deed} (h : ¬ deed.Shows deed.subject) :
    deed.interestsAfter none = none := by
  cases deed with
  | restart self => exact absurd rfl h
  | learn d => exact absurd rfl h
  | replace id ss timestamp => rfl
  | apply e =>
    cases e with
    | started b => exact absurd rfl h
    | subscriptionsUpdated b => exact absurd rfl h
    | _ => rfl

end Deed

namespace Registry.Follows

variable {r : Registry} {l : Chronicle}

/-- A dropped peer is unknown. -/
theorem unknown_perform_of_drops (h : r.Follows l) {deed : Deed} {id : PeerId}
    (hdrops : deed.Drops id) : (deed.perform r).members.find? id = none := by
  rw [← interests?_eq_none_iff, h.interests?_perform]
  cases deed with
  | restart self => exact (if_neg (Ne.symm hdrops)).trans (if_pos rfl)
  | learn d => exact hdrops.elim
  | replace id' ss timestamp => exact hdrops.elim
  | apply e =>
    cases e with
    | decommissioned b => exact if_pos (Eq.symm hdrops)
    | _ => exact hdrops.elim

/-- Whoever is unknown stays so until a descriptor of it comes in. -/
theorem unknown_perform (h : r.Follows l) {deed : Deed} {id : PeerId} (hnot : ¬ deed.Shows id)
    (hunknown : r.members.find? id = none) : (deed.perform r).members.find? id = none := by
  rw [← interests?_eq_none_iff, h.interests?_perform]
  split
  · next hid =>
    rw [← hid, hunknown]
    exact Deed.interestsAfter_of_unknown (hid ▸ hnot)
  · split
    · rfl
    · exact interests?_eq_none_iff.mpr hunknown

theorem unknown_performAll (h : r.Follows l) {deeds : List Deed} {id : PeerId}
    (hnot : ∀ deed ∈ deeds, ¬ deed.Shows id) (hunknown : r.members.find? id = none) :
    (Deed.performAll r deeds).members.find? id = none := by
  induction deeds generalizing r l with
  | nil => exact hunknown
  | cons deed deeds ih =>
    exact ih (h.perform deed) (fun d hd ↦ hnot d (List.mem_cons_of_mem _ hd))
      (h.unknown_perform (hnot deed List.mem_cons_self) hunknown)

/-- **Whoever handles a topic is known, and lists a subscription to it.** -/
theorem exists_subscription_of_mem_handlers (h : r.Follows l) {topic : Topic} {id : PeerId}
    (hid : id ∈ (r.handlers topic).map PeerRef.id) :
    ∃ d, r.descriptor? id = some d ∧ ∃ s ∈ d.subscriptions, s.type = topic.type ∧
      (topic.key.isEmpty ∨ s.pattern.accepts topic.key) := by
  cases hm : r.members.find? id with
  | some m =>
    obtain ⟨s, hs, htype, haccepts, -⟩ := (h.mem_ids_handlers_iff hm topic).mp hid
    exact ⟨m.descriptor, by rw [descriptor?, hm]; rfl, s, hs, htype, haccepts⟩
  | none =>
    -- whoever is filed asks for something, and who is unknown asks for nothing
    obtain ⟨pattern, hfiled, -⟩ := (Index.mem_ids_handlers h.index.tidy).mp hid
    obtain ⟨s, -, hlast⟩ := exists_last_of_alike ((h.index.holdsId_iff _ _).mp hfiled)
    have hasks : r.asks id s = true := by rw [h.asks_eq, hlast, Option.getD_some]
    rw [asks_of_unknown hm] at hasks
    cases hasks

end Registry.Follows

/-- Nobody is named twice. -/
theorem Registry.nodup_ids_handlers (r : Registry) (topic : Topic) :
    ((r.handlers topic).map PeerRef.id).Nodup := by
  rw [handlers, Index.handlers_eq_behind]
  exact Subscribers.nodup_ids_behind _ _

namespace Situation

/-- **Nobody handles what it did not ask for.**  In every situation that a client can get into,

* whoever handles a topic is known, and its descriptor lists a subscription to the topic;
* nobody is named twice;
* whoever was decommissioned, or forgotten when another peer registered, handles nothing as long as
  no descriptor of it has come in since. -/
theorem handlers_run (settings : Settings) (clock : Clock) (roster : Roster) (acts : List Act)
    (topic : Topic) :
    let s := start settings clock roster
    let r := (s.run acts).client.registry
    (∀ p ∈ r.handlers topic, ∃ d, r.descriptor? p.id = some d ∧ ∃ sub ∈ d.subscriptions,
      sub.type = topic.type ∧ (topic.key.isEmpty ∨ sub.pattern.accepts topic.key)) ∧
    ((r.handlers topic).map PeerRef.id).Nodup ∧
    ∀ before deed after id, s.deedsOfRun acts = before ++ deed :: after → deed.Drops id →
      (∀ deed' ∈ after, ¬ deed'.Shows id) → id ∉ (r.handlers topic).map PeerRef.id := by
  intro s r
  have hfollows : r.Follows (s.chronicle acts) := follows_run settings clock roster acts
  refine ⟨fun p hp ↦ hfollows.exists_subscription_of_mem_handlers (List.mem_map_of_mem hp),
    r.nodup_ids_handlers topic, fun before deed after id hdeeds hdrops hnot hid ↦ ?_⟩
  have hr : r =
      Deed.performAll (deed.perform (Deed.performAll s.client.registry before)) after := by
    show (s.run acts).client.registry = _
    rw [registry_run, hdeeds, Deed.performAll_append]
    rfl
  have hbefore := (Registry.Follows.nobody roster).performAll before
  have hunknown : r.members.find? id = none := by
    rw [hr]
    exact (hbefore.perform deed).unknown_performAll hnot (hbefore.unknown_perform_of_drops hdrops)
  obtain ⟨d, hd, -⟩ := hfollows.exists_subscription_of_mem_handlers hid
  rw [Registry.descriptor?, hunknown] at hd
  cases hd

/-- The peer of `startsTwice` is gone for good. -/
def isGone : Act := .event (.decommissioned ⟨⟨"Abc.P.0"⟩⟩)

/-- It was there before it was gone, and it is not there any more. -/
theorem handlers_isGone :
    ((inMarch.run [startsTwice]).client.registry.handlers ⟨fakeEvent, .empty⟩).map PeerRef.id =
      [⟨"Abc.P.0"⟩] ∧
    (⟨"Abc.P.0"⟩ : PeerId) ∉ ((inMarch.run [startsTwice, isGone]).client.registry.handlers
      ⟨fakeEvent, .empty⟩).map PeerRef.id := by
  refine ⟨by decide, ?_⟩
  obtain ⟨-, -, hgone⟩ := handlers_run {} ⟨⟨⟨2024, 3, 1⟩, 12, 0, 0, 0, by decide⟩, []⟩ {}
    [startsTwice, isGone] ⟨fakeEvent, .empty⟩
  exact hgone [_] _ [] ⟨"Abc.P.0"⟩ rfl rfl (fun _ h ↦ by cases h)

end Situation

end ServiceBus.Directory
