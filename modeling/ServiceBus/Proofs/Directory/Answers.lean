import ServiceBus.Proofs.Directory.Acceptance
import ServiceBus.Proofs.Directory.Effects

/-!
# What a registry answers

Those who ask a registry get two kinds of answers: the descriptor of a peer, with the state of the
peer at that moment, and the ids of the peers that handle a topic.  Two registries that give the
same answers may still differ in what they remember, and then may answer differently later on.

Both kinds of answers hang on less than the whole registry.  A descriptor lists what is enabled, in
an order that the flags alone decide (`Interests.enabled_congr`); and where a peer is filed after
some changes is said by the last change of each pattern (`Index.holdsId_followAll`).

A descriptor that comes in is passed over, or it makes a member or changes one; `learn_of_stale`,
`learn_of_unknown` and `learn_of_known` are the three cases.
-/

set_option autoImplicit false

namespace ServiceBus

namespace Subscription

/-- The order in which subscriptions are listed, as a comparison. -/
def order : Subscription → Subscription → Ordering :=
  compareLex (compareOn fun s ↦ s.type.name) <|
    compareLex (compareOn fun s ↦ s.pattern.text) <|
      compareLex (compareOn fun s ↦ s.pattern.joined) (compareOn fun s ↦ s.pattern.parts)

instance : Std.TransCmp order := by
  unfold order
  infer_instance

theorem listedBefore_eq (s s' : Subscription) : s.listedBefore s' = (order s s').isLE := rfl

/-- Subscriptions that are listed at one place are equal. -/
theorem eq_of_order {s s' : Subscription} (h : order s s' = .eq) : s = s' := by
  obtain ⟨⟨name⟩, ⟨parts, joined⟩⟩ := s
  obtain ⟨⟨name'⟩, ⟨parts', joined'⟩⟩ := s'
  simp only [order, compareLex, Ordering.then_eq_eq, compareOn, Std.compare_eq_iff_eq] at h
  obtain ⟨rfl, -, rfl, rfl⟩ := h
  rfl

theorem listedBefore_trans (s s' s'' : Subscription) (h : s.listedBefore s' = true)
    (h' : s'.listedBefore s'' = true) : s.listedBefore s'' = true := by
  rw [listedBefore_eq] at h h' ⊢
  exact Std.TransCmp.isLE_trans h h'

theorem listedBefore_total (s s' : Subscription) :
    (s.listedBefore s' || s'.listedBefore s) = true := by
  have hswap : order s' s = (order s s').swap := Std.OrientedCmp.eq_swap
  rw [listedBefore_eq, listedBefore_eq, hswap]
  cases order s s' <;> rfl

/-- Two lists of the same subscriptions, each of them once, are listed alike. -/
theorem mergeSort_listedBefore_eq {l l' : List Subscription} (h : l.Perm l') :
    l.mergeSort listedBefore = l'.mergeSort listedBefore := by
  have hperm := ((l.mergeSort_perm listedBefore).trans h).trans
    (l'.mergeSort_perm listedBefore).symm
  refine hperm.eq_of_pairwise (fun s s' _ _ hle hle' ↦ ?_)
    (List.pairwise_mergeSort listedBefore_trans listedBefore_total l)
    (List.pairwise_mergeSort listedBefore_trans listedBefore_total l')
  exact eq_of_order (Std.OrientedCmp.isLE_antisymm hle hle')

end Subscription

namespace Roster

theorem contact_add (roster : Roster) (p : Peer) :
    (roster.add p).2.contact (roster.add p).1 = p.contact := by
  simp [contact, add]

theorem valid_add (roster : Roster) (p : Peer) : (roster.add p).2.Valid (roster.add p).1 := by
  simp [Valid, add]

theorem valid_set {roster : Roster} {p : PeerRef} (h : roster.Valid p) (q : PeerRef)
    (c : Contact) : (roster.set q c).Valid p := by
  simpa [Valid, set, modify] using h

/-- What changes nothing the second time. -/
theorem modify_modify (roster : Roster) (p : PeerRef) {f : Contact → Contact}
    (h : ∀ c, f (f c) = f c) : (roster.modify p f).modify p f = roster.modify p f := by
  refine congrArg Roster.mk (Array.ext (by simp [modify]) fun n _ _ ↦ ?_)
  rw [Array.getElem_modify]
  split
  · next hp => simp [modify, Array.getElem_modify, hp, h]
  · rfl

theorem set_set (roster : Roster) (p : PeerRef) (c : Contact) :
    (roster.set p c).set p c = roster.set p c :=
  roster.modify_modify p fun _ ↦ rfl

/-- A new instance has its state already. -/
theorem set_add (roster : Roster) (p : Peer) :
    (roster.add p).2.set (roster.add p).1 p.contact = (roster.add p).2 := by
  refine congrArg Roster.mk (Array.ext (by simp [add]) fun n _ _ ↦ ?_)
  rw [Array.getElem_modify]
  split
  · next hp => simp [add, ← hp]
  · rfl

end Roster

namespace Directory

/-- What is listed hangs on the flags alone. -/
theorem Interests.enabled_congr {i i' : Interests} (h : ∀ s, i.isEnabled s = i'.isEnabled s) :
    i.enabled = i'.enabled := by
  refine Subscription.mergeSort_listedBefore_eq ?_
  refine (List.perm_ext_iff_of_nodup i.withoutRemains.statuses.nodup_keys
    i'.withoutRemains.statuses.nodup_keys).mpr fun s ↦ ?_
  exact mem_keys_withoutRemains.trans (h s ▸ mem_keys_withoutRemains.symm)

theorem Index.Tidy.followAll {x : Index} (h : x.Tidy) (p : PeerRef) (cs : List Change) :
    (x.followAll p cs).Tidy := by
  induction cs generalizing x with
  | nil => exact h
  | cons c cs ih => exact ih (h.follow p c)

/-- The last change of a pattern decides whether the peer is filed under it. -/
theorem Index.holdsId_followAll {x : Index} (h : x.Tidy) (p : PeerRef) (cs : List Change)
    (s : Subscription) (id : PeerId) :
    (x.followAll p cs).HoldsId s id ↔
      if id = p.id then
        (lastOf cs (fun s' ↦ s'.Alike s)).elim (x.HoldsId s id) (fun enabled ↦ enabled = true)
      else x.HoldsId s id := by
  induction cs generalizing x with
  | nil => simp [followAll]
  | cons c cs ih =>
    have hcons : lastOf (c :: cs) (fun s' ↦ s'.Alike s) =
        (lastOf cs (fun s' ↦ s'.Alike s)).or (lastOf [c] (fun s' ↦ s'.Alike s)) :=
      lastOf_append [c] cs _
    refine (ih (h.follow p c)).trans ?_
    rw [holdsId_follow h, hcons, lastOf_singleton]
    by_cases hid : id = p.id
    · cases lastOf cs (fun s' ↦ s'.Alike s) with
      | some enabled => simp [hid]
      | none => by_cases halike : c.subscription.Alike s <;> simp [hid, halike]
    · simp [hid]

/-! ## A descriptor comes in -/

/-- A member after a descriptor of it, but for its interests. -/
def Member.refreshed (m : Member) (d : Descriptor Peer) (refresh : Bool) : Member where
  peer := m.peer
  persistent := if refresh then d.persistent else m.persistent
  timestamp := d.timestamp
  debugged := if refresh then d.debugged else m.debugged
  interests := m.interests

namespace Registry

theorem find?_put (r : Registry) (m : Member) (changed : Interests × List Change) (id : PeerId) :
    (r.put m changed).members.find? id =
      if id = m.peer.id then some { m with interests := changed.1 } else r.members.find? id :=
  Table.find?_insert ..

theorem learn_of_stale {r : Registry} {d : Descriptor Peer} {m : Member}
    (hm : r.members.find? d.peer.id = some m)
    (hstale : Instant.isStale m.timestamp d.timestamp = true) (refresh : Bool) :
    (r.learn d refresh).1 = r := by
  rw [learn, hm]
  dsimp only
  rw [if_pos hstale]

theorem learn_of_unknown {r : Registry} {d : Descriptor Peer}
    (hm : r.members.find? d.peer.id = none) (refresh : Bool) :
    (r.learn d refresh).1 = addMember { r with roster := (r.roster.add d.peer).2 }
      (r.roster.add d.peer).1 (d.withPeer (r.roster.add d.peer).1) := by
  rw [learn, hm]

theorem learn_of_known {r : Registry} {d : Descriptor Peer} {m : Member}
    (hm : r.members.find? d.peer.id = some m)
    (hstale : Instant.isStale m.timestamp d.timestamp = false) (refresh : Bool) :
    (r.learn d refresh).1 =
      put { r with roster := if refresh then r.roster.set m.peer d.peer.contact else r.roster }
        (m.refreshed d refresh) (m.interests.replace d.subscriptions d.timestamp) := by
  rw [learn, hm]
  dsimp only
  rw [if_neg (by simp [hstale])]
  cases refresh <;> rfl

/-- A new member. -/
theorem find?_learn_of_unknown {r : Registry} {d : Descriptor Peer}
    (hm : r.members.find? d.peer.id = none) (refresh : Bool) :
    (r.learn d refresh).1.members.find? d.peer.id =
      some ⟨(r.roster.add d.peer).1, d.persistent, d.timestamp, d.debugged,
        (Interests.empty.replace d.subscriptions d.timestamp).1⟩ := by
  rw [learn_of_unknown hm, addMember, find?_put]
  exact if_pos rfl

/-- A known member after a descriptor of it that is taken in. -/
theorem find?_learn_of_known {r : Registry} {d : Descriptor Peer} {m : Member}
    (hm : r.members.find? d.peer.id = some m) (hown : m.peer.id = d.peer.id)
    (hstale : Instant.isStale m.timestamp d.timestamp = false) (refresh : Bool) :
    (r.learn d refresh).1.members.find? d.peer.id =
      some { m.refreshed d refresh with
        interests := (m.interests.replace d.subscriptions d.timestamp).1 } := by
  rw [learn_of_known hm hstale, find?_put]
  exact if_pos hown.symm

theorem replaceInterests_of_known {r : Registry} {id : PeerId} {m : Member}
    (hm : r.members.find? id = some m) (ss : List Subscription) (timestamp : Option Instant) :
    r.replaceInterests id ss timestamp =
      r.put { m with timestamp } (m.interests.replace ss timestamp) := by
  rw [replaceInterests, hm]

theorem replaceInterests_of_unknown {r : Registry} {id : PeerId}
    (hm : r.members.find? id = none) (ss : List Subscription) (timestamp : Option Instant) :
    r.replaceInterests id ss timestamp = r := by
  rw [replaceInterests, hm]

/-- A known peer after its interests were replaced. -/
theorem find?_replaceInterests {r : Registry} {id : PeerId} {m : Member}
    (hm : r.members.find? id = some m) (hown : m.peer.id = id) (ss : List Subscription)
    (timestamp : Option Instant) :
    (r.replaceInterests id ss timestamp).members.find? id =
      some { m with timestamp, interests := (m.interests.replace ss timestamp).1 } := by
  rw [replaceInterests_of_known hm, find?_put]
  exact if_pos hown.symm

/-! ## Answers -/

/-- What is told of a peer at the moment. -/
def told? (r : Registry) (id : PeerId) : Option (Descriptor Peer) :=
  (r.descriptor? id).map fun d ↦ d.withPeer (r.roster.peer d.peer)

theorem told?_of_known {r : Registry} {id : PeerId} {m : Member}
    (h : r.members.find? id = some m) :
    r.told? id = some (m.descriptor.withPeer (r.roster.peer m.peer)) := by
  rw [told?, descriptor?, h]
  rfl

theorem told?_of_unknown {r : Registry} {id : PeerId} (h : r.members.find? id = none) :
    r.told? id = none := by
  rw [told?, descriptor?, h]
  rfl

/-- Two registries tell the same of every peer, and have the same peers handle every topic. -/
structure AnswersLike (r r' : Registry) : Prop where
  /-- They tell the same of every peer. -/
  told : ∀ id, r.told? id = r'.told? id
  /-- The same peers handle a topic. -/
  handlers : ∀ topic id,
    id ∈ (r.handlers topic).map PeerRef.id ↔ id ∈ (r'.handlers topic).map PeerRef.id

namespace AnswersLike

theorem refl (r : Registry) : r.AnswersLike r := ⟨fun _ ↦ rfl, fun _ _ ↦ Iff.rfl⟩

theorem symm {r r' : Registry} (h : r.AnswersLike r') : r'.AnswersLike r :=
  ⟨fun id ↦ (h.told id).symm, fun topic id ↦ (h.handlers topic id).symm⟩

/-- Those who are told the same list the same. -/
theorem asks_eq {r r' : Registry} (h : r.AnswersLike r') (id : PeerId) (s : Subscription) :
    r.asks id s = r'.asks id s := by
  have htold := h.told id
  cases hm : r.members.find? id with
  | none =>
    cases hm' : r'.members.find? id with
    | none => rw [asks_of_unknown hm, asks_of_unknown hm']
    | some m' =>
      rw [told?_of_unknown hm, told?_of_known hm'] at htold
      cases htold
  | some m =>
    cases hm' : r'.members.find? id with
    | none =>
      rw [told?_of_known hm, told?_of_unknown hm'] at htold
      cases htold
    | some m' =>
      rw [told?_of_known hm, told?_of_known hm'] at htold
      have hlists : m.interests.enabled = m'.interests.enabled :=
        congrArg Descriptor.subscriptions (Option.some.inj htold)
      rw [asks_of_known hm, asks_of_known hm', Bool.eq_iff_iff, ← Interests.mem_enabled,
        ← Interests.mem_enabled, hlists]

end AnswersLike

end Registry

end Directory

end ServiceBus
