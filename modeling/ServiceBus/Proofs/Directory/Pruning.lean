import ServiceBus.Proofs.Directory.Holding
import ServiceBus.Proofs.Directory.Instances
import ServiceBus.Proofs.Subscribers.Agreement

/-!
# The index keeps no empty tree

Within a tree of subscribers no branch is ever taken away, so a tree may have branches and nobody in
it.  Whether somebody is in it is asked in two ways: by `Subscribers.isEmpty`, and by an answer to
the empty routing key without any peer.  The two agree
(`Subscribers.isEmpty_iff_behind_eq_nil`).

The index drops a tree with its last peer.  `Index.Pruned` says that no tree of it is empty, and
every deed keeps it so, for a deed changes the index only by letting it follow some changes
(`Registry.exists_index_perform`).  So there is a tree for a type just when a known peer is filed
for the type, and there is none at all when nobody is known: `Situation.pruned_run`.
-/

set_option autoImplicit false

namespace ServiceBus

theorem firstOfEachId_eq_nil_iff {l : List PeerRef} : firstOfEachId l = [] ↔ l = [] := by
  constructor
  · intro h
    cases l with
    | nil => rfl
    | cons p l =>
      have hp : p.id ∈ (firstOfEachId (p :: l)).map PeerRef.id :=
        mem_ids_firstOfEachId.mpr List.mem_cons_self
      rw [h] at hp
      cases hp
  · rintro rfl
    rfl

namespace Subscribers

/-- **A tree is empty just when the empty routing key is answered with nobody**, whatever branches
are left in it. -/
theorem isEmpty_iff_behind_eq_nil (s : Subscribers) {key : Key} (h : key.isEmpty) :
    s.isEmpty ↔ s.behind key = [] := by
  rw [behind, if_pos h, firstOfEachId_eq_nil_iff, List.append_eq_nil_iff, isEmpty,
    Bool.and_eq_true, List.isEmpty_iff, Trie.isEmpty_iff_all_eq_nil]

theorem not_isEmpty_of_holdsId {s : Subscribers} {pattern : Key} {id : PeerId}
    (h : s.HoldsId pattern id) : s.isEmpty = false :=
  Bool.eq_false_iff.mpr fun hempty ↦ not_holdsId_of_isEmpty hempty pattern id h

end Subscribers

namespace Directory

namespace Index

/-- No tree of the index is empty. -/
def Pruned (x : Index) : Prop :=
  ∀ type subscribers, x.byType.find? type = some subscribers → subscribers.isEmpty = false

theorem pruned_empty : Pruned {} := fun _ _ h ↦ by cases h

namespace Pruned

variable {x : Index}

theorem add (h : x.Pruned) (htidy : x.Tidy) (p : PeerRef) (s : Subscription) :
    (x.add p s).Pruned := by
  intro type subscribers hfind
  rw [Index.add, Table.find?_insert] at hfind
  split at hfind
  · obtain rfl := Option.some.inj hfind
    have hfiled : ((x.subscribers s.type).add p s.pattern).HoldsId s.pattern p.id :=
      (Subscribers.holdsId_add (htidy s.type) ..).mpr (Or.inr ⟨rfl, .refl _⟩)
    exact Subscribers.not_isEmpty_of_holdsId hfiled
  · exact h type subscribers hfind

theorem remove (h : x.Pruned) (p : PeerRef) (s : Subscription) : (x.remove p s).Pruned := by
  intro type subscribers hfind
  rw [Index.remove] at hfind
  split at hfind
  · exact h type subscribers hfind
  · next before hbefore =>
    dsimp only at hfind
    split at hfind
    · rw [Table.find?_erase] at hfind
      split at hfind
      · cases hfind
      · exact h type subscribers hfind
    · next hleft =>
      rw [Table.find?_insert] at hfind
      split at hfind
      · obtain rfl := Option.some.inj hfind
        exact Bool.eq_false_iff.mpr hleft
      · exact h type subscribers hfind

theorem followAll (h : x.Pruned) (htidy : x.Tidy) (p : PeerRef) (cs : List Change) :
    (x.followAll p cs).Pruned := by
  induction cs generalizing x with
  | nil => exact h
  | cons c cs ih =>
    have hfollow : (x.follow p c).Pruned := by
      rw [Index.follow]
      split
      · exact h.add htidy p c.subscription
      · exact h.remove p c.subscription
    exact ih hfollow (htidy.follow p c)

end Pruned

end Index

namespace Registry

theorem exists_index_learn (r : Registry) (d : Descriptor Peer) (refresh : Bool) :
    ∃ p cs, (r.learn d refresh).1.index = r.index.followAll p cs := by
  cases hm : r.members.find? d.peer.id with
  | none =>
    rw [learn_of_unknown hm]
    exact ⟨_, _, rfl⟩
  | some m =>
    cases hstale : Instant.isStale m.timestamp d.timestamp with
    | true =>
      rw [learn_of_stale hm hstale]
      exact ⟨m.peer, [], rfl⟩
    | false =>
      rw [learn_of_known hm hstale]
      exact ⟨_, _, rfl⟩

theorem exists_index_amend (r : Registry) (id : PeerId) (type : MessageType)
    {change : Member → Registry × List Notice}
    (h : ∀ m, ∃ cs, (change m).1.index = r.index.followAll m.peer cs) :
    ∃ p cs, (r.amend id type change).1.index = r.index.followAll p cs := by
  rw [amend]
  cases r.members.find? id with
  | none => exact ⟨⟨id, 0⟩, [], rfl⟩
  | some m => exact ⟨m.peer, h m⟩

/-- The index follows some changes of one peer, after it was cleared if the deed is a restart. -/
theorem exists_index_perform (r : Registry) (deed : Deed) :
    ∃ p cs, (deed.perform r).index =
      Index.followAll (if deed.forgets then {} else r.index) p cs := by
  cases deed with
  | restart self => exact ⟨_, _, rfl⟩
  | learn d => exact r.exists_index_learn d true
  | replace id ss timestamp =>
    cases hm : r.members.find? id with
    | none =>
      rw [Deed.perform, replaceInterests_of_unknown hm]
      exact ⟨⟨id, 0⟩, [], rfl⟩
    | some m =>
      rw [Deed.perform, replaceInterests_of_known hm]
      exact ⟨_, _, rfl⟩
  | apply e =>
    cases e with
    | started b => exact r.exists_index_learn b.descriptor true
    | subscriptionsUpdated b => exact r.exists_index_learn b.descriptor false
    | stopped b =>
      refine r.exists_index_amend _ _ fun m ↦ ⟨[], ?_⟩
      split <;> rfl
    | decommissioned b => exact r.exists_index_amend _ _ fun m ↦ ⟨_, rfl⟩
    | subscriptionsAdded b => exact r.exists_index_amend _ _ fun m ↦ ⟨_, rfl⟩
    | subscriptionsRemoved b => exact r.exists_index_amend _ _ fun m ↦ ⟨_, rfl⟩
    | subscriptionsForTypesUpdated b => exact r.exists_index_amend _ _ fun m ↦ ⟨_, rfl⟩
    | notResponding b => exact r.exists_index_amend _ _ fun m ↦ ⟨[], rfl⟩
    | responding b => exact r.exists_index_amend _ _ fun m ↦ ⟨[], rfl⟩

variable {r : Registry} {l : Chronicle}

theorem pruned_perform (hfollows : r.Follows l) (h : r.index.Pruned) (deed : Deed) :
    (deed.perform r).index.Pruned := by
  obtain ⟨p, cs, hindex⟩ := r.exists_index_perform deed
  rw [hindex]
  split
  · exact Index.pruned_empty.followAll Index.tidy_empty p cs
  · exact h.followAll hfollows.index.tidy p cs

theorem pruned_performAll (hfollows : r.Follows l) (h : r.index.Pruned) (deeds : List Deed) :
    (Deed.performAll r deeds).index.Pruned := by
  induction deeds generalizing r l with
  | nil => exact h
  | cons deed deeds ih => exact ih (hfollows.perform deed) (pruned_perform hfollows h deed)

/-- There is a tree for a type just when a known peer is filed for the type. -/
theorem isSome_find?_byType_iff (hfollows : r.Follows l) (h : r.index.Pruned)
    (type : MessageType) :
    (r.index.byType.find? type).isSome ↔
      ∃ id p, r.peer? id = some p ∧ ∃ pattern, r.index.HoldsId ⟨type, pattern⟩ id := by
  constructor
  · intro hsome
    obtain ⟨subscribers, hfind⟩ := Option.isSome_iff_exists.mp hsome
    have hsubscribers : r.index.subscribers type = subscribers := by
      rw [Index.subscribers, hfind, Option.getD_some]
    -- the empty routing key is answered with somebody
    have hbehind : subscribers.behind .empty ≠ [] := fun hnobody ↦ by
      have hempty := (subscribers.isEmpty_iff_behind_eq_nil rfl).mpr hnobody
      rw [h type subscribers hfind] at hempty
      cases hempty
    obtain ⟨p, hp⟩ := List.exists_mem_of_ne_nil _ hbehind
    have htidy : subscribers.Tidy := hsubscribers ▸ hfollows.index.tidy type
    obtain ⟨pattern, hholds⟩ := Subscribers.exists_holds_of_mem_behind htidy hp
    have hfiled : r.index.Holds ⟨type, pattern⟩ p := by
      rw [← hsubscribers] at hholds
      exact hholds
    obtain ⟨q, hq⟩ := hfollows.exists_peer?_of_holds hfiled
    exact ⟨p.id, q, hq, pattern, Index.holdsId_of_holds hfiled⟩
  · rintro ⟨id, -, -, pattern, hholds⟩
    by_contra hnone
    rw [Option.not_isSome_iff_eq_none] at hnone
    rw [Index.HoldsId, Index.subscribers, hnone] at hholds
    exact Subscribers.not_holdsId_empty pattern id hholds

theorem index_of_nobody (hfollows : r.Follows l) (h : r.index.Pruned)
    (hnobody : ∀ id, r.peer? id = none) : r.index = {} := by
  have hnone : ∀ type, r.index.byType.find? type = none := by
    intro type
    by_contra hsome
    obtain ⟨id, p, hp, -⟩ := (isSome_find?_byType_iff hfollows h type).mp
      (Option.isSome_iff_ne_none.mpr hsome)
    rw [hnobody id] at hp
    cases hp
  have hempty : r.index.byType = .empty := Table.eq_empty_of_find? hnone
  show (⟨r.index.byType⟩ : Index) = ⟨.empty⟩
  rw [hempty]

/-- Those who are decommissioned are not known any more. -/
theorem peer?_decommissionAll (r : Registry) (ids : List PeerId) (id : PeerId) :
    (r.applyAll (ids.map fun id ↦ .decommissioned ⟨id⟩)).1.peer? id =
      if id ∈ ids then none else r.peer? id := by
  induction ids generalizing r with
  | nil => rfl
  | cons gone ids ih =>
    refine (ih (r.apply (.decommissioned ⟨gone⟩)).1).trans ?_
    rw [peer?_decommission]
    by_cases hid : id = gone <;> by_cases hids : id ∈ ids <;> simp [hid, hids]

end Registry

namespace Situation

theorem pruned_index_run (settings : Settings) (clock : Clock) (roster : Roster)
    (acts : List Act) :
    ((start settings clock roster).run acts).client.registry.index.Pruned := by
  rw [registry_run]
  exact Registry.pruned_performAll (.nobody roster) Index.pruned_empty _

/-- The events that the peers with these ids are gone for good. -/
def decommissions (ids : List PeerId) : List Act :=
  (ids.map fun id ↦ Event.decommissioned ⟨id⟩).map .event

/-- **No empty trees.**  A tree that was made by filing and taking out is empty just when the empty
routing key is answered with nobody.  In every situation that a client can get into

* no tree of the index is empty;
* there is a tree for a type just when a known peer is filed for the type;
* if no peer is known, the index is empty;
* if events are not held back, the index is empty after all known peers were decommissioned. -/
theorem pruned_run (fs : List Filing) (settings : Settings) (clock : Clock) (roster : Roster)
    (acts : List Act) :
    let s := (start settings clock roster).run acts
    let r := s.client.registry
    (∀ key : Key, key.isEmpty →
      ((Filing.performAll fs).isEmpty ↔ (Filing.performAll fs).behind key = [])) ∧
    (∀ type subscribers, r.index.byType.find? type = some subscribers →
      subscribers.isEmpty = false) ∧
    (∀ type, (r.index.byType.find? type).isSome ↔
      ∃ id p, r.peer? id = some p ∧ ∃ pattern, r.index.HoldsId ⟨type, pattern⟩ id) ∧
    ((∀ id, r.peer? id = none) → r.index = {}) ∧
    ∀ ids, s.client.held = none → (∀ id, r.peer? id ≠ none → id ∈ ids) →
      (s.run (decommissions ids)).client.registry.index = {} := by
  have hpruned := pruned_index_run settings clock roster
  have hfollows := follows_run settings clock roster
  intro s r
  refine ⟨fun key hkey ↦ Subscribers.isEmpty_iff_behind_eq_nil _ hkey, hpruned acts,
    Registry.isSome_find?_byType_iff (hfollows acts) (hpruned acts),
    Registry.index_of_nobody (hfollows acts) (hpruned acts), fun ids hheld hids ↦ ?_⟩
  -- the situation afterwards is one that the client can get into, too
  have hreached : s.run (decommissions ids) =
      (start settings clock roster).run (acts ++ decommissions ids) := (run_append ..).symm
  have hgone : ∀ id, (s.run (decommissions ids)).client.registry.peer? id = none := by
    intro id
    rw [decommissions, registry_run_events hheld, Registry.peer?_decommissionAll]
    split
    · rfl
    · next hid =>
      by_contra hknown
      exact hid (hids id hknown)
  rw [hreached] at hgone ⊢
  exact Registry.index_of_nobody (hfollows _) (hpruned _) hgone

/-- Of the peer of `startsTwice`, which asks for all messages in two ways, nothing is left. -/
theorem index_startsTwice_decommissions :
    ((inMarch.run [startsTwice]).client.registry.index.byType.find? fakeEvent).isSome ∧
    ((inMarch.run [startsTwice]).run (decommissions [⟨"Abc.P.0"⟩])).client.registry.index = {} := by
  obtain ⟨-, -, -, -, hgone⟩ := pruned_run [] {} ⟨⟨⟨2024, 3, 1⟩, 12, 0, 0, 0, by decide⟩, []⟩ {}
    [startsTwice]
  refine ⟨by decide, hgone [⟨"Abc.P.0"⟩] rfl fun id hknown ↦ ?_⟩
  have hkeys : (inMarch.run [startsTwice]).client.registry.members.keys = [⟨"Abc.P.0"⟩] := by
    decide
  refine hkeys ▸ Table.mem_keys_iff.mpr (Option.isSome_iff_ne_none.mpr fun hnone ↦ hknown ?_)
  exact congrArg (Option.map Member.peer) hnone

end Situation

end Directory

end ServiceBus
