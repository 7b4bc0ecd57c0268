import ServiceBus.Proofs.Directory.Repetition

/-!
# Late news of a peer whose full set is known

A full descriptor of a peer has a time, and tells all subscriptions of the peer as of then.  An
event that only tells a part, and is older, should not change what the descriptor told.  But such an
event is never compared with the descriptor; it is compared with each subscription by itself
(`Registry.Follows.asks_perform_of_partial`).  And a descriptor gives its time only to those
subscriptions that it enables or disables: what is enabled already keeps its own time, and of what
it does not list, and what was not enabled, nothing is known at all (`Interests.find?_replace`).

So the time of the descriptor protects just what it changed.  `Situation.asks_of_late_partial` says
that, and what becomes of the rest.
-/

set_option autoImplicit false

namespace ServiceBus.Directory

/-- What the event says of a subscription, if it tells a part of the subscriptions of its peer. -/
def Event.says? : Event → Subscription → Option Bool
  | .subscriptionsAdded b, s => if s ∈ b.subscriptions then some true else none
  | .subscriptionsRemoved b, s => if s ∈ b.subscriptions then some false else none
  | .subscriptionsForTypesUpdated b, s => TypeInterest.says? b.interests s
  | _, _ => none

/-- The event tells a part of the subscriptions of its peer. -/
def Event.IsPartial : Event → Prop
  | .subscriptionsAdded _ => True
  | .subscriptionsRemoved _ => True
  | .subscriptionsForTypesUpdated _ => True
  | _ => False

namespace Deed

/-- The full descriptor of a peer that comes in, with an event or in the answer of a server. -/
def descriptor? : Deed → Option (Descriptor Peer)
  | learn d => some d
  | apply e => e.descriptor?
  | _ => none

theorem subject_of_descriptor? {deed : Deed} {d : Descriptor Peer}
    (h : deed.descriptor? = some d) : deed.subject = d.peer.id := by
  cases deed with
  | restart self => cases h
  | learn d' =>
    obtain rfl := Option.some.inj h
    rfl
  | apply e => exact (Event.exists_refresh h).1
  | replace id ss timestamp => cases h

/-- Whatever brings a descriptor, the interests are learned from it. -/
theorem interestsAfter_of_descriptor? {deed : Deed} {d : Descriptor Peer}
    (h : deed.descriptor? = some d) (m? : Option Member) :
    deed.interestsAfter m? = some (learnedInterests m? d) := by
  cases deed with
  | restart self => cases h
  | learn d' =>
    obtain rfl := Option.some.inj h
    rfl
  | apply e =>
    cases e with
    | started b =>
      obtain rfl := Option.some.inj h
      rfl
    | subscriptionsUpdated b =>
      obtain rfl := Option.some.inj h
      rfl
    | _ => cases h
  | replace id ss timestamp => cases h

theorem learnedInterests_of_takes {m? : Option Member} {d : Descriptor Peer}
    (h : takes m? d = true) :
    learnedInterests m? d =
      (((m?.map Member.interests).getD .empty).replace d.subscriptions d.timestamp).1 := by
  cases m? with
  | none => rfl
  | some m =>
    have hstale : Instant.isStale m.timestamp d.timestamp = false := by simpa [takes] using h
    rw [learnedInterests, hstale]
    rfl

/-- What tells a part keeps the peer, and forgets nothing. -/
theorem spares_of_isPartial {e : Event} (h : e.IsPartial) (r : Registry) (id : PeerId)
    (s : Subscription) : (apply e).Spares r id s := by
  cases e with
  | subscriptionsAdded b => exact ⟨rfl, not_false, fun _ hreplaces ↦ by cases hreplaces⟩
  | subscriptionsRemoved b => exact ⟨rfl, not_false, fun _ hreplaces ↦ by cases hreplaces⟩
  | subscriptionsForTypesUpdated b => exact ⟨rfl, not_false, fun _ hreplaces ↦ by cases hreplaces⟩
  | _ => cases h

end Deed

namespace Registry

/-- What is known of a subscription is newer than a time. -/
def isNewer (r : Registry) (id : PeerId) (s : Subscription) (timestamp : Option Instant) : Bool :=
  (r.status? id s).any fun status ↦ Instant.isStale status.timestamp timestamp

theorem isNewer_of_known {r : Registry} {id : PeerId} {m : Member}
    (hm : r.members.find? id = some m) (s : Subscription) (timestamp : Option Instant) :
    r.isNewer id s timestamp = m.interests.isNewer s timestamp := by
  rw [isNewer, status?_of_interests? (interests?_of_known hm)]
  rfl

namespace Follows

variable {r : Registry} {l : Chronicle} {id : PeerId} {i : Interests} {s : Subscription}

/-- **What an event makes of a subscription that tells a part.**  It is compared with what is known
of that subscription, and with nothing else. -/
theorem asks_perform_of_partial (h : r.Follows l) {e : Event} (he : e.IsPartial)
    (hi : r.interests? e.peer = some i) :
    ((Deed.apply e).perform r).asks e.peer s =
      if i.isNewer s e.timestamp? then i.isEnabled s
      else (e.says? s).getD (i.isEnabled s) := by
  obtain ⟨m, hm, rfl⟩ := Option.map_eq_some_iff.mp hi
  have hinterests := (h.interests?_apply e e.peer).trans (if_pos rfl)
  rw [asks_eq_any_interests?]
  cases e with
  | subscriptionsAdded b =>
    rw [Deed.perform, hinterests, hm]
    refine (Interests.isEnabled_setAll ..).trans ?_
    by_cases hs : s ∈ b.subscriptions <;> simp [hs, Event.timestamp?, Event.says?]
  | subscriptionsRemoved b =>
    rw [Deed.perform, hinterests, hm]
    refine (Interests.isEnabled_setAll ..).trans ?_
    by_cases hs : s ∈ b.subscriptions <;> simp [hs, Event.timestamp?, Event.says?]
  | subscriptionsForTypesUpdated b =>
    rw [Deed.perform, hinterests, hm]
    exact Interests.isEnabled_replaceTypes ..
  | _ => cases he

/-- Here the status of the subscription is that of an earlier registry, if it was enabled there, and
otherwise nothing is known of it. -/
theorem asks_perform_of_kept (h : r.Follows l) {before : Registry} {e : Event} (he : e.IsPartial)
    (hknown : r.descriptor? e.peer ≠ none)
    (hkept : r.status? e.peer s = if before.asks e.peer s then before.status? e.peer s else none) :
    ((Deed.apply e).perform r).asks e.peer s =
      if before.asks e.peer s && before.isNewer e.peer s e.timestamp? then true
      else (e.says? s).getD (before.asks e.peer s) := by
  obtain ⟨_, hd⟩ := Option.ne_none_iff_exists'.mp hknown
  obtain ⟨m, hm, -⟩ := Option.map_eq_some_iff.mp hd
  have hi : r.interests? e.peer = some m.interests := interests?_of_known hm
  rw [status?_of_interests? hi] at hkept
  have hflag : m.interests.isEnabled s = before.asks e.peer s := by
    rw [Interests.isEnabled, hkept]
    cases hasks : before.asks e.peer s with
    | false => rfl
    | true => exact (before.asks_eq_any_status? e.peer s).symm.trans hasks
  have hnewer : m.interests.isNewer s e.timestamp? =
      (before.asks e.peer s && before.isNewer e.peer s e.timestamp?) := by
    rw [Interests.isNewer, hkept]
    cases before.asks e.peer s <;> rfl
  rw [h.asks_perform_of_partial he hi, hflag, hnewer]
  cases before.asks e.peer s <;> simp

/-! ## What a descriptor leaves of a status -/

theorem interests?_perform_of_takes (h : r.Follows l) {deed : Deed} {d : Descriptor Peer}
    (hd : deed.descriptor? = some d) (htakes : Deed.takes (r.members.find? d.peer.id) d = true) :
    (deed.perform r).interests? d.peer.id =
      some (((r.interests? d.peer.id).getD .empty).replace d.subscriptions d.timestamp).1 := by
  have hsubject := Deed.subject_of_descriptor? hd
  rw [h.interests?_perform, if_pos hsubject.symm, hsubject,
    Deed.interestsAfter_of_descriptor? hd, Deed.learnedInterests_of_takes htakes]
  rfl

theorem asks_eq_isEnabled_getD (r : Registry) (id : PeerId) (s : Subscription) :
    r.asks id s = ((r.interests? id).getD .empty).isEnabled s := by
  rw [asks_eq_any_interests?]
  cases r.interests? id <;> rfl

/-- What the descriptor changes has the time of the descriptor. -/
theorem since_of_takes (h : r.Follows l) {deed : Deed} {d : Descriptor Peer} {time : Instant}
    (hd : deed.descriptor? = some d) (htakes : Deed.takes (r.members.find? d.peer.id) d = true)
    (htime : d.timestamp = some time)
    (hchanged : (deed.perform r).asks d.peer.id s ≠ r.asks d.peer.id s) :
    Status.Since time ((deed.perform r).status? d.peer.id s) := by
  have hafter := h.interests?_perform_of_takes hd htakes
  rw [asks_eq_any_interests?, hafter, Option.any_some, asks_eq_isEnabled_getD] at hchanged
  rw [status?, hafter, Option.bind_some]
  rw [htime] at hchanged ⊢
  generalize (r.interests? d.peer.id).getD .empty = i at hchanged ⊢
  suffices hnow : ∃ enabled, (i.replace d.subscriptions (some time)).1.statuses.find? s =
      some ⟨enabled, some time⟩ by
    obtain ⟨enabled, hnow⟩ := hnow
    exact ⟨_, time, hnow, rfl, Int.le_refl _⟩
  cases hbefore : i.isEnabled s with
  | true =>
    rw [hbefore, ne_eq, Bool.not_eq_true] at hchanged
    exact ⟨false, (Interests.find?_replace_of_disabled hchanged).trans (if_pos hbefore)⟩
  | false =>
    rw [hbefore, ne_eq, Bool.not_eq_false, Interests.isEnabled_replace, hbefore] at hchanged
    have hs : s ∈ d.subscriptions := by simpa using hchanged
    exact ⟨true, by simp [Interests.find?_replace, hbefore, hs]⟩

/-- What the descriptor leaves as it is keeps its time, or nothing is known of it. -/
theorem status?_perform_of_takes (h : r.Follows l) {deed : Deed} {d : Descriptor Peer}
    (hd : deed.descriptor? = some d) (htakes : Deed.takes (r.members.find? d.peer.id) d = true)
    (hsame : (deed.perform r).asks d.peer.id s = r.asks d.peer.id s) :
    (deed.perform r).status? d.peer.id s =
      if r.asks d.peer.id s then r.status? d.peer.id s else none := by
  have hafter := h.interests?_perform_of_takes hd htakes
  have hstatus : r.status? d.peer.id s =
      ((r.interests? d.peer.id).getD .empty).statuses.find? s := by
    rw [status?]
    cases r.interests? d.peer.id <;> rfl
  rw [asks_eq_any_interests?, hafter, Option.any_some, asks_eq_isEnabled_getD] at hsame
  rw [status?, hafter, Option.bind_some, hstatus, asks_eq_isEnabled_getD]
  generalize (r.interests? d.peer.id).getD .empty = i at hsame ⊢
  cases hbefore : i.isEnabled s with
  | false =>
    rw [hbefore] at hsame
    rw [Interests.find?_replace_of_disabled hsame, hbefore]
    rfl
  | true =>
    rw [hbefore] at hsame
    rw [Interests.find?_replace, if_pos hbefore, if_pos rfl]
    split
    · rfl
    · next hs =>
      obtain hnow | hkept := Status.announced_eq_or (i.statuses.find? s) false d.timestamp
      · -- it would be disabled
        rw [Interests.isEnabled, Interests.find?_replace, if_pos hbefore, if_neg hs, hnow] at hsame
        cases hsame
      · exact hkept.symm

end Follows

end Registry

namespace Situation

theorem since_registryAt {settings : Settings} {clock : Clock} {roster : Roster}
    {acts : List Act} {i j : Nat} {id : PeerId} {s : Subscription} {time : Instant} (hij : i ≤ j)
    (hj : j ≤ ((start settings clock roster).deedsOfRun acts).length)
    (hsince : Status.Since time (((start settings clock roster).registryAt acts i).status? id s))
    (hbetween : ∀ n deed, i ≤ n → n < j →
      ((start settings clock roster).deedsOfRun acts)[n]? = some deed →
      deed.Dated ∧ deed.Spares ((start settings clock roster).registryAt acts n) id s) :
    Status.Since time (((start settings clock roster).registryAt acts j).status? id s) := by
  induction j, hij using Nat.le_induction with
  | base => exact hsince
  | succ n hin ih =>
    have hdeed := List.getElem?_eq_getElem (l := (start settings clock roster).deedsOfRun acts)
      (show n < _ by omega)
    obtain ⟨hdated, hspares⟩ := hbetween n _ hin (Nat.lt_succ_self n) hdeed
    rw [registryAt_succ hdeed]
    refine (follows_registryAt settings clock roster acts n).since_perform hdated hspares ?_
    exact ih (by omega) fun n' deed hi hn ↦ hbetween n' deed hi (by omega)

/-- **What a full descriptor protects from older news.**  In a run of a client, let a full
descriptor of a peer be taken in, and let an event that tells a part of the subscriptions of the
peer, and is older, be applied later.

* A subscription that the descriptor enabled or disabled stays as it is, provided that from the one
  to the other every deed of a kind that has a time tells it, the peer stays known, no registration
  begins, and the subscriptions of the peer are not replaced while the one subscription is disabled.
* A subscription that the descriptor left as it was, and of which nothing else was taken in since,
  is as the event says, unless it was enabled before the descriptor by news that is newer than the
  event. -/
theorem asks_of_late_partial (settings : Settings) (clock : Clock) (roster : Roster)
    (acts : List Act) {i j : Nat} {deed : Deed} {d : Descriptor Peer} {e : Event}
    {time time' : Instant} (s : Subscription)
    (hdeed : ((start settings clock roster).deedsOfRun acts)[i]? = some deed)
    (hd : deed.descriptor? = some d)
    (htakes : Deed.takes
      (((start settings clock roster).registryAt acts i).members.find? d.peer.id) d = true)
    (htime : d.timestamp = some time)
    (he : ((start settings clock roster).deedsOfRun acts)[j]? = some (.apply e))
    (hpartial : e.IsPartial) (hpeer : e.peer = d.peer.id) (hij : i < j)
    (htime' : e.timestamp? = some time') (hlate : time' < time) :
    let r := (start settings clock roster).registryAt acts
    ((r (i + 1)).asks d.peer.id s ≠ (r i).asks d.peer.id s →
      (∀ n deed', i < n → n < j →
        ((start settings clock roster).deedsOfRun acts)[n]? = some deed' →
        deed'.Dated ∧ deed'.Spares (r n) d.peer.id s) →
      (r (j + 1)).asks d.peer.id s = (r j).asks d.peer.id s) ∧
    ((r (i + 1)).asks d.peer.id s = (r i).asks d.peer.id s →
      (r j).descriptor? d.peer.id ≠ none →
      (r j).status? d.peer.id s = (r (i + 1)).status? d.peer.id s →
      (r (j + 1)).asks d.peer.id s =
        if (r i).asks d.peer.id s && (r i).isNewer d.peer.id s (some time') then true
        else (e.says? s).getD ((r i).asks d.peer.id s)) := by
  intro r
  have hfollows := follows_registryAt settings clock roster acts
  have hset : r (i + 1) = deed.perform (r i) := registryAt_succ hdeed
  have hnext : r (j + 1) = (Deed.apply e).perform (r j) := registryAt_succ he
  refine ⟨fun hchanged hbetween ↦ ?_, fun hsame hknown hstill ↦ ?_⟩
  · rw [hset] at hchanged
    have hsince := (hfollows i).since_of_takes hd htakes htime hchanged
    rw [← hset] at hsince
    have hlength := (List.getElem?_eq_some_iff.mp he).1
    have hsince' := since_registryAt hij (Nat.le_of_lt hlength) hsince hbetween
    rw [hnext]
    exact (hfollows j).asks_perform_of_late htime' hlate (Deed.spares_of_isPartial hpartial ..)
      hsince'
  · rw [hset] at hsame hstill
    rw [(hfollows i).status?_perform_of_takes hd htakes hsame] at hstill
    rw [← hpeer] at hknown hstill ⊢
    rw [hnext, ← htime']
    exact (hfollows j).asks_perform_of_kept hpartial hknown hstill

/-- A peer has started at noon with a subscription and lists nothing ten seconds later; then comes
the news that it had subscribed five seconds after noon. -/
def addedTooLate : List Act :=
  [.event (.started ⟨told [.toAll fakeEvent] 0⟩), .event listsNothing,
    .event (added ⟨"Abc.P.0"⟩ 5)]

/-- The list disabled the subscription, and the news does not bring it back. -/
theorem asks_addedTooLate :
    let asks (n : Nat) := (inMarch.registryAt addedTooLate n).asks ⟨"Abc.P.0"⟩ (.toAll fakeEvent)
    asks 1 = true ∧ asks 2 = false ∧ asks 3 = asks 2 := by
  obtain ⟨hchanged, -⟩ := asks_of_late_partial {} ⟨⟨⟨2024, 3, 1⟩, 12, 0, 0, 0, by decide⟩, []⟩ {}
    addedTooLate (i := 1) (j := 2) (.toAll fakeEvent) rfl rfl (by decide) rfl rfl trivial rfl
    (by decide) rfl (by decide)
  refine ⟨by decide, by decide, hchanged (by decide) fun n deed hi hj ↦ ?_⟩
  omega

/-- A peer starts ten seconds after noon and lists nothing; then comes the news that it had
subscribed five seconds before. -/
def addedBeforeStart : List Act :=
  [.event (.started ⟨told [] 10⟩), .event (added ⟨"Abc.P.0"⟩ 5)]

/-- A peer lists a subscription when it starts at noon and again ten seconds later; then comes the
news that it had given the subscription up five seconds after noon. -/
def removedBeforeList : List Act :=
  [.event (.started ⟨told [.toAll fakeEvent] 0⟩),
    .event (.subscriptionsUpdated ⟨told [.toAll fakeEvent] 10⟩),
    .event (.subscriptionsRemoved ⟨⟨"Abc.P.0"⟩, [.toAll fakeEvent], some (afterNoon 5)⟩)]

/-- **Older news can change what a full descriptor told.**  It brings a subscription that the
descriptor does not list, and it takes one away that the descriptor lists. -/
theorem asks_lateNews :
    afterNoon 5 < afterNoon 10 ∧
    (inMarch.deedsOfRun addedBeforeStart)[0]? = some (.apply (.started ⟨told [] 10⟩)) ∧
    (inMarch.deedsOfRun addedBeforeStart)[1]? = some (.apply (added ⟨"Abc.P.0"⟩ 5)) ∧
    (inMarch.registryAt addedBeforeStart 1).asks ⟨"Abc.P.0"⟩ (.toAll fakeEvent) = false ∧
    (inMarch.registryAt addedBeforeStart 2).asks ⟨"Abc.P.0"⟩ (.toAll fakeEvent) = true ∧
    (inMarch.deedsOfRun removedBeforeList)[1]? =
      some (.apply (.subscriptionsUpdated ⟨told [.toAll fakeEvent] 10⟩)) ∧
    (inMarch.deedsOfRun removedBeforeList)[2]? =
      some (.apply (.subscriptionsRemoved
        ⟨⟨"Abc.P.0"⟩, [.toAll fakeEvent], some (afterNoon 5)⟩)) ∧
    (inMarch.registryAt removedBeforeList 2).asks ⟨"Abc.P.0"⟩ (.toAll fakeEvent) = true ∧
    (inMarch.registryAt removedBeforeList 3).asks ⟨"Abc.P.0"⟩ (.toAll fakeEvent) = false :=
  ⟨by decide, rfl, rfl, by decide, by decide, rfl, rfl, by decide, by decide⟩

end Situation

end ServiceBus.Directory
