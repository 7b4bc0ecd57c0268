import ServiceBus.Proofs.Directory.Runs

/-!
# Which enabled subscriptions are delivered to

A peer that asks for a message should be among those who handle it.  The registry keeps what a peer
asks for by subscription and files the peer by pattern, and one pattern can be written by several
subscriptions.  So the peer is not always there: when one subscription is given up, the peer is
taken out from under its pattern, and another enabled subscription that writes the pattern in
another way is *silenced*.

`mem_ids_handlers_run_iff` is the exact account.  In every situation that a client can get into, a
known peer handles a topic if it lists a subscription to it that is not silenced.  Nothing else
keeps a peer from being there, and nothing else brings one there.
-/

set_option autoImplicit false

namespace ServiceBus.Directory

theorem lastOf_congr {cs : List Change} {kind kind' : Subscription → Bool}
    (h : ∀ s, kind s = kind' s) : lastOf cs kind = lastOf cs kind' := by
  rw [funext h]

/-- Subscriptions that are alike are filed as one. -/
theorem lastOf_alike {s s' : Subscription} (h : s.Alike s') (cs : List Change) :
    lastOf cs (fun s'' ↦ s''.Alike s) = lastOf cs (fun s'' ↦ s''.Alike s') := by
  refine lastOf_congr fun s'' ↦ ?_
  have hiff : s''.Alike s ↔ s''.Alike s' := ⟨fun h' ↦ h'.trans h, fun h' ↦ h'.trans h.symm⟩
  simp only [hiff]

/-- The last change of a pattern is the last one of the subscription that it is to. -/
theorem exists_last_of_alike {cs : List Change} {s : Subscription} {enabled : Bool}
    (h : lastOf cs (fun s' ↦ s'.Alike s) = some enabled) :
    ∃ s', s'.Alike s ∧ lastOf cs (fun s'' ↦ s'' = s') = some enabled := by
  obtain ⟨before, c, after, hcs, halike, henabled, hafter⟩ := lastOf_eq_some_iff.mp h
  have halike : c.subscription.Alike s := by simpa using halike
  refine ⟨c.subscription, halike, lastOf_eq_some_iff.mpr
    ⟨before, c, after, hcs, by simp, henabled, fun c' hc' hsame ↦ ?_⟩⟩
  have hsame : c'.subscription = c.subscription := by simpa using hsame
  exact hafter c' hc' (by simpa [hsame] using halike)

namespace Registry.Follows

variable {r : Registry} {l : Chronicle}

/-- A known peer lists a subscription if the last change of it says so. -/
theorem mem_subscriptions_iff (h : r.Follows l) {id : PeerId} {m : Member}
    (hm : r.members.find? id = some m) (s : Subscription) :
    s ∈ m.descriptor.subscriptions ↔ lastOf (l id) (fun s' ↦ s' = s) = some true := by
  rw [Member.descriptor, Interests.mem_enabled, ← asks_of_known hm, h.asks_eq]
  cases lastOf (l id) (fun s' ↦ s' = s) <;> simp

theorem mem_ids_handlers_iff (h : r.Follows l) {id : PeerId} {m : Member}
    (hm : r.members.find? id = some m) (topic : Topic) :
    id ∈ (r.handlers topic).map PeerRef.id ↔
      ∃ s ∈ m.descriptor.subscriptions, s.type = topic.type ∧
        (topic.key.isEmpty ∨ s.pattern.accepts topic.key) ∧ ¬ Silenced (l id) s := by
  rw [handlers, Index.mem_ids_handlers h.index.tidy]
  constructor
  · rintro ⟨pattern, hfiled, haccepts⟩
    rw [h.index.holdsId_iff] at hfiled
    -- the subscription by which the peer was filed last is the one that is looked for
    obtain ⟨s, halike, hlast⟩ := exists_last_of_alike hfiled
    refine ⟨s, (h.mem_subscriptions_iff hm s).mpr hlast, halike.1, ?_, ?_⟩
    · rwa [halike.2.accepts_eq]
    · rw [← lastOf_alike_iff_not_silenced hlast, lastOf_alike halike]
      exact hfiled
  · rintro ⟨s, hs, htype, haccepts, hnot⟩
    have hlast := (h.mem_subscriptions_iff hm s).mp hs
    refine ⟨s.pattern, ?_, haccepts⟩
    rw [← htype, h.index.holdsId_iff]
    exact (lastOf_alike_iff_not_silenced hlast).mpr hnot

end Registry.Follows

namespace Situation

/-- **Who handles a topic.**  In every situation that a client can get into, a known peer handles a
topic exactly if it lists an enabled subscription to it that is not silenced. -/
theorem mem_ids_handlers_run_iff (settings : Settings) (clock : Clock) (roster : Roster)
    (acts : List Act) {id : PeerId} {m : Member}
    (hm : ((start settings clock roster).run acts).client.registry.members.find? id = some m)
    (topic : Topic) :
    id ∈ (((start settings clock roster).run acts).client.registry.handlers topic).map PeerRef.id ↔
      ∃ s ∈ m.descriptor.subscriptions, s.type = topic.type ∧
        (topic.key.isEmpty ∨ s.pattern.accepts topic.key) ∧
          ¬ Silenced ((start settings clock roster).chronicle acts id) s :=
  (follows_run settings clock roster acts).mem_ids_handlers_iff hm topic

/-! ## A silenced subscription -/

/-- A client that was made on a day in March. -/
def inMarch : Situation := start {} ⟨⟨⟨2024, 3, 1⟩, 12, 0, 0, 0, by decide⟩, []⟩ {}

/-- A type of messages. -/
def fakeEvent : MessageType := ⟨"Tests.FakeEvent"⟩

/-- A peer starts that asks for all messages of the type, and says so in two ways. -/
def startsTwice : Act :=
  .event (.started ⟨{
    peer := .live ⟨"Abc.P.0"⟩ "tcp://Abc.P.0:1"
    subscriptions := [.toAll fakeEvent, ⟨fakeEvent, ⟨[Key.sharp], false⟩⟩] }⟩)

/-- The peer gives up one of the two subscriptions. -/
def givesUpOne : Act :=
  .event (.subscriptionsRemoved ⟨⟨"Abc.P.0"⟩, [⟨fakeEvent, ⟨[Key.sharp], false⟩⟩], none⟩)

/-- Before that the peer is known, and it handles the messages. -/
theorem handlers_startsTwice :
    ∃ m, (inMarch.run [startsTwice]).client.registry.members.find? ⟨"Abc.P.0"⟩ = some m ∧
      ∃ s ∈ m.descriptor.subscriptions, s.type = fakeEvent ∧
        (Key.isEmpty ⟨["a"], false⟩ ∨ s.pattern.accepts ⟨["a"], false⟩) ∧
          ¬ Silenced (inMarch.chronicle [startsTwice] ⟨"Abc.P.0"⟩) s := by
  have hknown : ((inMarch.run [startsTwice]).client.registry.members.find?
      ⟨"Abc.P.0"⟩).isSome := by decide
  obtain ⟨m, hm⟩ := Option.isSome_iff_exists.mp hknown
  have hthere : (⟨"Abc.P.0"⟩ : PeerId) ∈ ((inMarch.run [startsTwice]).client.registry.handlers
      ⟨fakeEvent, ⟨["a"], false⟩⟩).map PeerRef.id := by decide
  exact ⟨m, hm, (mem_ids_handlers_run_iff _ _ _ _ hm ⟨fakeEvent, ⟨["a"], false⟩⟩).mp hthere⟩

/-- **An enabled subscription can lose its routing.**  After that the peer still lists the other
subscription, which accepts the messages, and does not handle them. -/
theorem not_mem_handlers_givesUpOne :
    ∃ m, (inMarch.run [startsTwice, givesUpOne]).client.registry.members.find? ⟨"Abc.P.0"⟩ =
        some m ∧
      .toAll fakeEvent ∈ m.descriptor.subscriptions ∧
      (Subscription.toAll fakeEvent).accepts ⟨fakeEvent, ⟨["a"], false⟩⟩ ∧
      (⟨"Abc.P.0"⟩ : PeerId) ∉ ((inMarch.run [startsTwice, givesUpOne]).client.registry.handlers
        ⟨fakeEvent, ⟨["a"], false⟩⟩).map PeerRef.id := by
  have hasks : (inMarch.run [startsTwice, givesUpOne]).client.registry.asks ⟨"Abc.P.0"⟩
      (.toAll fakeEvent) = true := by decide
  obtain ⟨m, hm, henabled⟩ := (Option.any_eq_true ..).mp hasks
  exact ⟨m, hm, Interests.mem_enabled.mpr henabled, by decide, by decide⟩

end Situation

end ServiceBus.Directory
