import ServiceBus.Proofs.Directory.Answers
import ServiceBus.Proofs.Directory.Consent
import ServiceBus.Proofs.Directory.Lateness

/-!
# One instance of each peer

A peer is handed out as a reference to an instance, and whoever holds the instance sees the peer
stop and start.  That is of use only if everybody is handed the same one.  A registry keeps
instances in two places, though: each member has its own, and the index files one under every
pattern that the peer asks by.

`Registry.Shares` says that the two places agree: whoever is filed is the instance of the member
with its id.  Only a registration and a descriptor of an unknown peer bring in an instance, and the
index knows of no unknown peer; so `Shares.perform` keeps this through every deed.
`Registry.Follows.peer?_perform` says for each peer what its instance is after a deed, and
`Situation.hands_registryAt` puts both together.
-/

set_option autoImplicit false

namespace ServiceBus.Directory

/-! ## Which instances are filed -/

namespace Index

/-- An instance is filed under a subscription. -/
def Holds (x : Index) (s : Subscription) (p : PeerRef) : Prop :=
  (x.subscribers s.type).Holds s.pattern p

theorem not_holds_empty (s : Subscription) (p : PeerRef) : ¬ Holds {} s p :=
  Subscribers.not_holds_empty s.pattern p

theorem holdsId_of_holds {x : Index} {s : Subscription} {p : PeerRef} (h : x.Holds s p) :
    x.HoldsId s p.id := ⟨p, h, rfl⟩

theorem holds_of_add {x : Index} (h : x.Tidy) {p q : PeerRef} {s s' : Subscription}
    (hq : (x.add p s).Holds s' q) : x.Holds s' q ∨ q = p := by
  rw [Holds, subscribers_add] at hq
  split at hq
  · obtain hold | ⟨-, rfl, -⟩ := (Subscribers.holds_add (h s'.type) ..).mp hq
    · exact Or.inl hold
    · exact Or.inr rfl
  · exact Or.inl hq

theorem holds_of_remove {x : Index} (h : x.Tidy) {p q : PeerRef} {s s' : Subscription}
    (hq : (x.remove p s).Holds s' q) : x.Holds s' q := by
  rw [Holds, subscribers_remove] at hq
  split at hq
  · dsimp only at hq
    split at hq
    · exact absurd hq (Subscribers.not_holds_empty _ _)
    · exact ((Subscribers.holds_remove (h s'.type) ..).mp hq).1
  · exact hq

/-- Whoever is filed after some changes was filed before, or is the instance that they are about. -/
theorem holds_of_followAll {x : Index} (h : x.Tidy) {p q : PeerRef} {cs : List Change}
    {s : Subscription} (hq : (x.followAll p cs).Holds s q) : x.Holds s q ∨ q = p := by
  induction cs generalizing x with
  | nil => exact Or.inl hq
  | cons c cs ih =>
    obtain hfollow | rfl := ih (h.follow p c) hq
    · rw [follow] at hfollow
      split at hfollow
      · exact holds_of_add h hfollow
      · exact Or.inl (holds_of_remove h hfollow)
    · exact Or.inr rfl

/-- Whoever handles a topic is filed. -/
theorem exists_holds_of_mem_handlers {x : Index} (h : x.Tidy) {topic : Topic} {p : PeerRef}
    (hp : p ∈ x.handlers topic) : ∃ s, x.Holds s p := by
  rw [handlers_eq_behind] at hp
  obtain ⟨pattern, hholds⟩ := Subscribers.exists_holds_of_mem_behind (h topic.type) hp
  exact ⟨⟨topic.type, pattern⟩, hholds⟩

end Index

/-! ## What the instance of a peer is -/

namespace Deed

/-- The instance of a peer after a descriptor of it came in. -/
def learnedInstance (r : Registry) (d : Descriptor Peer) : PeerRef :=
  (r.peer? d.peer.id).getD (r.roster.add d.peer).1

/-- The instance of the subject afterwards, if the subject is known then. -/
def instanceAfter (r : Registry) : Deed → Option PeerRef
  | restart self => some self.peer
  | learn d => some (learnedInstance r d)
  | apply (.started b) => some (learnedInstance r b.descriptor)
  | apply (.subscriptionsUpdated b) => some (learnedInstance r b.descriptor)
  | apply (.decommissioned _) => none
  | apply e => r.peer? e.peer
  | replace id _ _ => r.peer? id

/-- A registration begins, or the peer is decommissioned. -/
def Renews (id : PeerId) : Deed → Prop
  | restart _ => True
  | apply (.decommissioned b) => b.peer = id
  | _ => False

end Deed

namespace Registry

theorem peer?_of_known {r : Registry} {id : PeerId} {m : Member}
    (h : r.members.find? id = some m) : r.peer? id = some m.peer := by
  rw [peer?, h]
  rfl

theorem peer?_put (r : Registry) (m : Member) (changed : Interests × List Change) (id : PeerId) :
    (r.put m changed).peer? id = if id = m.peer.id then some m.peer else r.peer? id := by
  rw [peer?, find?_put]
  split <;> rfl

/-- What leaves all instances as they are leaves that of one peer as it is. -/
theorem peer?_same (r : Registry) (id id' : PeerId) :
    r.peer? id = if id = id' then r.peer? id' else r.peer? id := by
  split
  · next hid => rw [hid]
  · rfl

namespace Follows

variable {r : Registry} {l : Chronicle}

/-- A known peer that is put anew keeps its instance. -/
theorem peer?_putKnown (h : r.Follows l) {id' : PeerId} {m : Member}
    (hm : r.members.find? id' = some m) (m' : Member) (hpeer : m'.peer = m.peer)
    (changed : Interests × List Change) (id : PeerId) :
    (r.put m' changed).peer? id = r.peer? id := by
  rw [peer?_put, hpeer, h.own _ _ hm]
  split
  · next hid => rw [hid, peer?_of_known hm]
  · rfl

theorem peer?_learn (h : r.Follows l) (d : Descriptor Peer) (refresh : Bool) (id : PeerId) :
    (r.learn d refresh).1.peer? id =
      if id = d.peer.id then some (Deed.learnedInstance r d) else r.peer? id := by
  rw [Deed.learnedInstance]
  cases hm : r.members.find? d.peer.id with
  | none =>
    rw [learn_of_unknown hm, show r.peer? d.peer.id = none by rw [peer?, hm]; rfl]
    exact peer?_put ..
  | some m =>
    rw [peer?_of_known hm, Option.getD_some, ← peer?_of_known hm, ← peer?_same]
    cases hstale : Instant.isStale m.timestamp d.timestamp with
    | true => rw [learn_of_stale hm hstale]
    | false =>
      rw [learn_of_known hm hstale]
      exact (h.withRoster _).peer?_putKnown hm (m.refreshed d refresh) rfl _ id

theorem peer?_amendInterests (h : r.Follows l) (id' : PeerId) (type : MessageType)
    (change : Interests → Interests × List Change) (id : PeerId) :
    (r.amendInterests id' type change).1.peer? id = r.peer? id := by
  rw [Registry.amendInterests, amend]
  cases hm : r.members.find? id' with
  | some m => exact h.peer?_putKnown hm m rfl _ id
  | none => rfl

end Follows

theorem peer?_setResponding (r : Registry) (id' : PeerId) (type : MessageType)
    (responding : Bool) (id : PeerId) :
    (r.setResponding id' type responding).1.peer? id = r.peer? id := by
  rw [setResponding, amend]
  cases r.members.find? id' <;> rfl

theorem peer?_stop (r : Registry) (b : Stopped) (id : PeerId) :
    (r.apply (.stopped b)).1.peer? id = r.peer? id := by
  rw [apply, amend]
  cases hm : r.members.find? b.peer with
  | none => rfl
  | some m =>
    dsimp only
    split
    · rfl
    · rw [peer?]
      dsimp only
      rw [Table.find?_insert]
      split
      · next hid => rw [hid, peer?_of_known hm]; rfl
      · rfl

theorem peer?_decommission (r : Registry) (b : Decommissioned) (id : PeerId) :
    (r.apply (.decommissioned b)).1.peer? id = if id = b.peer then none else r.peer? id := by
  rw [apply, amend]
  cases hm : r.members.find? b.peer with
  | none =>
    dsimp only
    split
    · next hid => rw [hid, peer?, hm]; rfl
    · rfl
  | some m =>
    rw [peer?]
    dsimp only
    rw [Table.find?_erase]
    split <;> rfl

namespace Follows

variable {r : Registry} {l : Chronicle}

theorem peer?_apply (h : r.Follows l) (e : Event) (id : PeerId) :
    (r.apply e).1.peer? id =
      if id = e.peer then (Deed.apply e).instanceAfter r else r.peer? id := by
  cases e with
  | started b => exact h.peer?_learn b.descriptor true id
  | subscriptionsUpdated b => exact h.peer?_learn b.descriptor false id
  | decommissioned b => exact peer?_decommission r b id
  | stopped b => exact (peer?_stop r b id).trans (peer?_same r id b.peer)
  | subscriptionsAdded b => exact (h.peer?_amendInterests b.peer _ _ id).trans (peer?_same ..)
  | subscriptionsRemoved b => exact (h.peer?_amendInterests b.peer _ _ id).trans (peer?_same ..)
  | subscriptionsForTypesUpdated b =>
    exact (h.peer?_amendInterests b.peer _ _ id).trans (peer?_same ..)
  | notResponding b => exact (peer?_setResponding r b.peer _ false id).trans (peer?_same ..)
  | responding b => exact (peer?_setResponding r b.peer _ true id).trans (peer?_same ..)

/-- **What the instance of each peer is after a deed.** -/
theorem peer?_perform (h : r.Follows l) (deed : Deed) (id : PeerId) :
    (deed.perform r).peer? id =
      if id = deed.subject then deed.instanceAfter r
      else if deed.forgets then none else r.peer? id := by
  cases deed with
  | restart self => exact peer?_put ..
  | learn d => exact h.peer?_learn d true id
  | apply e => exact h.peer?_apply e id
  | replace id' ss timestamp =>
    refine Eq.trans ?_ (peer?_same r id id')
    cases hm : r.members.find? id' with
    | some m =>
      rw [Deed.perform, replaceInterests_of_known hm]
      exact h.peer?_putKnown hm { m with timestamp } rfl _ id
    | none => rw [Deed.perform, replaceInterests_of_unknown hm]

/-- A peer that is known keeps its instance, unless a registration begins or it is
decommissioned. -/
theorem peer?_perform_of_not_renews (h : r.Follows l) {deed : Deed} {id : PeerId} {p : PeerRef}
    (hnot : ¬ deed.Renews id) (hp : r.peer? id = some p) :
    (deed.perform r).peer? id = some p := by
  have hlearned : ∀ d : Descriptor Peer, id = d.peer.id →
      some (Deed.learnedInstance r d) = some p := fun d hid ↦ by
    rw [Deed.learnedInstance, ← hid, hp, Option.getD_some]
  rw [h.peer?_perform]
  split
  · next hid =>
    cases deed with
    | restart self => exact absurd trivial hnot
    | learn d => exact hlearned d hid
    | replace id' ss timestamp => exact (congrArg r.peer? hid).symm.trans hp
    | apply e =>
      cases e with
      | started b => exact hlearned b.descriptor hid
      | subscriptionsUpdated b => exact hlearned b.descriptor hid
      | decommissioned b => exact absurd hid.symm hnot
      | _ => exact (congrArg r.peer? hid).symm.trans hp
  · cases deed with
    | restart self => exact absurd trivial hnot
    | _ => exact hp

theorem peer?_performAll_of_not_renews (h : r.Follows l) {deeds : List Deed} {id : PeerId}
    {p : PeerRef} (hnot : ∀ deed ∈ deeds, ¬ deed.Renews id) (hp : r.peer? id = some p) :
    (Deed.performAll r deeds).peer? id = some p := by
  induction deeds generalizing r l with
  | nil => exact hp
  | cons deed deeds ih =>
    exact ih (h.perform deed) (fun d hd ↦ hnot d (List.mem_cons_of_mem _ hd))
      (h.peer?_perform_of_not_renews (hnot deed List.mem_cons_self) hp)

/-- Whoever is filed is known. -/
theorem exists_peer?_of_holds (h : r.Follows l) {s : Subscription} {p : PeerRef}
    (hp : r.index.Holds s p) : ∃ q, r.peer? p.id = some q := by
  have hlast := (h.index.holdsId_iff s p.id).mp (Index.holdsId_of_holds hp)
  obtain ⟨s', -, hlast'⟩ := exists_last_of_alike hlast
  have hasks : r.asks p.id s' = true := by rw [h.asks_eq, hlast']; rfl
  cases hm : r.members.find? p.id with
  | some m => exact ⟨m.peer, peer?_of_known hm⟩
  | none => rw [asks_of_unknown hm] at hasks; cases hasks

end Follows

/-! ## The instances that are filed are those of the members -/

/-- Whoever is filed is the instance of the member with its id. -/
def Shares (r : Registry) : Prop := ∀ s p, r.index.Holds s p → r.peer? p.id = some p

namespace Shares

variable {r : Registry} {l : Chronicle}

theorem nobody (roster : Roster) : Shares { roster } :=
  fun s p hp ↦ absurd hp (Index.not_holds_empty s p)

/-- The states of the instances play no part. -/
theorem withRoster (h : r.Shares) (roster : Roster) : Shares { r with roster } := h

/-- A member is put whose id has no other instance. -/
theorem put (h : r.Shares) (htidy : r.index.Tidy) {m : Member}
    (hsame : ∀ p, r.peer? m.peer.id = some p → p = m.peer) (changed : Interests × List Change) :
    (r.put m changed).Shares := by
  intro s p hp
  rw [peer?_put]
  obtain hbefore | rfl := Index.holds_of_followAll htidy hp
  · have hknown := h s p hbefore
    split
    · next hid => rw [hsame p (hid ▸ hknown)]
    · exact hknown
  · exact if_pos rfl

theorem putKnown (hfollows : r.Follows l) (h : r.Shares) {id : PeerId} {m : Member}
    (hm : r.members.find? id = some m) {m' : Member} (hpeer : m'.peer = m.peer)
    (changed : Interests × List Change) : (r.put m' changed).Shares := by
  refine h.put hfollows.index.tidy (fun p hp ↦ ?_) changed
  rw [hpeer, hfollows.own id m hm, peer?_of_known hm] at hp
  rw [hpeer]
  exact (Option.some.inj hp).symm

theorem restart (r : Registry) (self : Descriptor PeerRef) : (r.restart self).Shares :=
  (nobody r.roster).put Index.tidy_empty (fun p hp ↦ by cases hp) _

theorem learn (hfollows : r.Follows l) (h : r.Shares) (d : Descriptor Peer) (refresh : Bool) :
    (r.learn d refresh).1.Shares := by
  cases hm : r.members.find? d.peer.id with
  | none =>
    rw [learn_of_unknown hm]
    refine (h.withRoster _).put hfollows.index.tidy (fun p hp ↦ ?_) _
    have hnone : r.peer? d.peer.id = none := by rw [peer?, hm]; rfl
    exact absurd (hnone.symm.trans hp) (by simp)
  | some m =>
    cases hstale : Instant.isStale m.timestamp d.timestamp with
    | true => rwa [learn_of_stale hm hstale]
    | false =>
      rw [learn_of_known hm hstale]
      have hpeer : (m.refreshed d refresh).peer = m.peer := rfl
      exact putKnown (hfollows.withRoster _) (h.withRoster _) hm hpeer _

theorem amendInterests (hfollows : r.Follows l) (h : r.Shares) (id : PeerId) (type : MessageType)
    (change : Interests → Interests × List Change) :
    (r.amendInterests id type change).1.Shares := by
  rw [Registry.amendInterests, amend]
  cases hm : r.members.find? id with
  | some m => exact putKnown hfollows h hm rfl _
  | none => exact h

/-- What leaves index and instances as they are. -/
theorem of_same {r' : Registry} (h : r.Shares) (hindex : r'.index = r.index)
    (hpeer : ∀ id, r'.peer? id = r.peer? id) : r'.Shares := by
  intro s p hp
  rw [hpeer]
  exact h s p (hindex ▸ hp)

theorem setResponding (h : r.Shares) (id : PeerId) (type : MessageType) (responding : Bool) :
    (r.setResponding id type responding).1.Shares := by
  refine h.of_same ?_ (peer?_setResponding r id type responding)
  rw [Registry.setResponding, amend]
  cases r.members.find? id <;> rfl

theorem stop (h : r.Shares) (b : Stopped) : (r.apply (.stopped b)).1.Shares := by
  refine h.of_same ?_ (peer?_stop r b)
  rw [Registry.apply, amend]
  cases r.members.find? b.peer with
  | none => rfl
  | some m =>
    dsimp only
    split <;> rfl

/-- A peer that goes is filed nowhere, for whoever is filed is known. -/
theorem decommission (hfollows : r.Follows l) (h : r.Shares) (b : Decommissioned) :
    (r.apply (.decommissioned b)).1.Shares := by
  intro s p hp
  obtain ⟨q, hq⟩ := (hfollows.decommission b).exists_peer?_of_holds hp
  rw [peer?_decommission] at hq ⊢
  split at hq
  · cases hq
  · next hid =>
    rw [if_neg hid]
    refine h s p ?_
    cases hm : r.members.find? b.peer with
    | none =>
      rw [Registry.apply, amend, hm] at hp
      exact hp
    | some m =>
      rw [Registry.apply, amend, hm] at hp
      obtain hbefore | rfl := Index.holds_of_followAll hfollows.index.tidy hp
      · exact hbefore
      · exact absurd (hfollows.own _ _ hm) hid

/-- One deed leaves no instance behind that is not the instance of its peer. -/
theorem perform (hfollows : r.Follows l) (h : r.Shares) (deed : Deed) :
    (deed.perform r).Shares := by
  cases deed with
  | restart self => exact restart r self
  | learn d => exact learn hfollows h d true
  | replace id ss timestamp =>
    cases hm : r.members.find? id with
    | none => rwa [Deed.perform, replaceInterests_of_unknown hm]
    | some m =>
      rw [Deed.perform, replaceInterests_of_known hm]
      have hpeer : ({ m with timestamp } : Member).peer = m.peer := rfl
      exact putKnown hfollows h hm hpeer _
  | apply e =>
    cases e with
    | started b => exact learn hfollows h b.descriptor true
    | subscriptionsUpdated b => exact learn hfollows h b.descriptor false
    | stopped b => exact h.stop b
    | decommissioned b => exact decommission hfollows h b
    | subscriptionsAdded b => exact amendInterests hfollows h b.peer _ _
    | subscriptionsRemoved b => exact amendInterests hfollows h b.peer _ _
    | subscriptionsForTypesUpdated b => exact amendInterests hfollows h b.peer _ _
    | notResponding b => exact h.setResponding b.peer _ false
    | responding b => exact h.setResponding b.peer _ true

theorem performAll (hfollows : r.Follows l) (h : r.Shares) (deeds : List Deed) :
    (Deed.performAll r deeds).Shares := by
  induction deeds generalizing r l with
  | nil => exact h
  | cons deed deeds ih => exact ih (hfollows.perform deed) (perform hfollows h deed)

end Shares

/-! ## Which instances are handed out -/

/-- The instance is handed out for a peer, by one question or another. -/
inductive Hands (r : Registry) (id : PeerId) (p : PeerRef) : Prop
  /-- The instance of the peer is asked for. -/
  | peer (h : r.peer? id = some p)
  /-- The descriptor of the peer is asked for. -/
  | descriptor (d : Descriptor PeerRef) (h : r.descriptor? id = some d) (hpeer : d.peer = p)
  /-- All descriptors are asked for. -/
  | listed (d : Descriptor PeerRef) (h : d ∈ r.descriptors) (hpeer : d.peer = p) (hid : p.id = id)
  /-- Those who handle a topic are asked for. -/
  | handler (topic : Topic) (h : p ∈ r.handlers topic) (hid : p.id = id)

/-- Every question is answered with the instance of the member. -/
theorem Shares.peer?_of_hands {r : Registry} {l : Chronicle} (hfollows : r.Follows l)
    (h : r.Shares) {id : PeerId} {p : PeerRef} (hp : r.Hands id p) : r.peer? id = some p := by
  cases hp with
  | peer hp => exact hp
  | descriptor d hd hpeer =>
    obtain ⟨m, hm, rfl⟩ := Option.map_eq_some_iff.mp hd
    rw [← hpeer]
    exact peer?_of_known hm
  | listed d hd hpeer hid =>
    rw [descriptors, List.mem_mergeSort] at hd
    obtain ⟨m, hvalue, rfl⟩ := List.mem_map.mp hd
    obtain ⟨key, hm⟩ := Table.exists_find?_of_mem_values hvalue
    have hown : m.peer.id = key := hfollows.own key m hm
    subst hpeer
    rw [← hid, show m.descriptor.peer.id = key from hown]
    exact peer?_of_known hm
  | handler topic hmem hid =>
    obtain ⟨s, hholds⟩ := Index.exists_holds_of_mem_handlers hfollows.index.tidy hmem
    rw [← hid]
    exact h s p hholds

end Registry

namespace Situation

variable {settings : Settings} {clock : Clock} {roster : Roster} {acts : List Act} {n n' : Nat}

theorem shares_registryAt (settings : Settings) (clock : Clock) (roster : Roster)
    (acts : List Act) (n : Nat) : ((start settings clock roster).registryAt acts n).Shares :=
  Registry.Shares.performAll (Registry.Follows.nobody roster) (.nobody roster) _

/-- At every moment of a run all questions about a peer are answered with one instance. -/
theorem peer?_of_hands {id : PeerId} {p : PeerRef}
    (hp : ((start settings clock roster).registryAt acts n).Hands id p) :
    ((start settings clock roster).registryAt acts n).peer? id = some p :=
  (shares_registryAt settings clock roster acts n).peer?_of_hands
    (follows_registryAt settings clock roster acts n) hp

theorem registryAt_of_le (s : Situation) (acts : List Act) (hle : n ≤ n') :
    s.registryAt acts n' =
      Deed.performAll (s.registryAt acts n) (((s.deedsOfRun acts).take n').drop n) := by
  have hsplit : (s.deedsOfRun acts).take n' =
      (s.deedsOfRun acts).take n ++ ((s.deedsOfRun acts).take n').drop n := by
    conv_lhs => rw [← List.take_append_drop n ((s.deedsOfRun acts).take n')]
    rw [List.take_take, Nat.min_eq_left hle]
  exact (congrArg (Deed.performAll s.client.registry) hsplit).trans (Deed.performAll_append ..)

theorem peer?_registryAt_of_le (hle : n ≤ n') {id : PeerId} {p : PeerRef}
    (hnot : ∀ i deed, n ≤ i → i < n' →
      ((start settings clock roster).deedsOfRun acts)[i]? = some deed → ¬ deed.Renews id)
    (hp : ((start settings clock roster).registryAt acts n).peer? id = some p) :
    ((start settings clock roster).registryAt acts n').peer? id = some p := by
  rw [registryAt_of_le _ _ hle]
  refine (follows_registryAt settings clock roster acts n).peer?_performAll_of_not_renews
    (fun deed hdeed ↦ ?_) hp
  obtain ⟨i, hi, hget⟩ := List.mem_iff_getElem.mp hdeed
  rw [List.length_drop, List.length_take] at hi
  refine hnot (n + i) deed (by omega) (by omega) ?_
  rw [← hget, List.getElem_drop, List.getElem_take]
  exact List.getElem?_eq_getElem _

/-- **One instance of each peer.**  At every moment of a run of a client, all questions about a peer
are answered with one instance.  As long as no registration begins and the peer is not
decommissioned, the questions go on to be answered with that instance, and what the directory tells
of the peer is the state of that instance. -/
theorem hands_registryAt (settings : Settings) (clock : Clock) (roster : Roster)
    (acts : List Act) {n : Nat} {id : PeerId} {p : PeerRef}
    (hp : ((start settings clock roster).registryAt acts n).Hands id p) :
    (∀ q, ((start settings clock roster).registryAt acts n).Hands id q → q = p) ∧
    ∀ n', n ≤ n' →
      (∀ i deed, n ≤ i → i < n' →
        ((start settings clock roster).deedsOfRun acts)[i]? = some deed → ¬ deed.Renews id) →
      let r' := (start settings clock roster).registryAt acts n'
      r'.peer? id = some p ∧ (∀ q, r'.Hands id q → q = p) ∧
        (r'.told? id).map Descriptor.peer = some (r'.roster.peer p) := by
  have hknown := peer?_of_hands hp
  refine ⟨fun q hq ↦ Option.some.inj ((peer?_of_hands hq).symm.trans hknown),
    fun n' hle hnot ↦ ?_⟩
  have hstill := peer?_registryAt_of_le hle hnot hknown
  refine ⟨hstill, fun q hq ↦ Option.some.inj ((peer?_of_hands hq).symm.trans hstill), ?_⟩
  obtain ⟨m, hm, rfl⟩ := Option.map_eq_some_iff.mp hstill
  rw [Registry.told?_of_known hm]
  rfl

/-- The peer of `startsTwice` stops. -/
def stopsThen : Act := .event (.stopped ⟨⟨"Abc.P.0"⟩, none, none⟩)

/-- Whoever was handed the peer before, as one that handles a topic, sees it stop. -/
theorem hands_stopsThen :
    (inMarch.registryAt [startsTwice, stopsThen] 1).Hands ⟨"Abc.P.0"⟩ ⟨⟨"Abc.P.0"⟩, 0⟩ ∧
    ((inMarch.registryAt [startsTwice, stopsThen] 2).told? ⟨"Abc.P.0"⟩).map Descriptor.peer =
      some ((inMarch.registryAt [startsTwice, stopsThen] 2).roster.peer ⟨⟨"Abc.P.0"⟩, 0⟩) ∧
    (inMarch.registryAt [startsTwice, stopsThen] 1).roster.isLive ⟨⟨"Abc.P.0"⟩, 0⟩ = true ∧
    (inMarch.registryAt [startsTwice, stopsThen] 2).roster.isLive ⟨⟨"Abc.P.0"⟩, 0⟩ = false := by
  have hhands : (inMarch.registryAt [startsTwice, stopsThen] 1).Hands ⟨"Abc.P.0"⟩
      ⟨⟨"Abc.P.0"⟩, 0⟩ := .handler ⟨fakeEvent, .empty⟩ (by decide) rfl
  obtain ⟨-, hafter⟩ := hands_registryAt {} ⟨⟨⟨2024, 3, 1⟩, 12, 0, 0, 0, by decide⟩, []⟩ {}
    [startsTwice, stopsThen] hhands
  refine ⟨hhands, (hafter 2 (by decide) fun i deed hi hi' hdeed ↦ ?_).2.2, by decide, by decide⟩
  obtain rfl : i = 1 := by omega
  obtain rfl := Option.some.inj hdeed
  exact not_false

end Situation

end ServiceBus.Directory
