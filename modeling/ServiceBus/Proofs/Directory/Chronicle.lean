import ServiceBus.Directory.Index
import ServiceBus.Proofs.Subscribers.Contents

/-!
# The index and what was told of each peer

A *chronicle* says for each peer which changes of its subscriptions were accepted, oldest first.
Two things are read off it:

* the last change of a subscription tells whether the subscription is enabled;
* the last change of a *pattern*, in whatever way a subscription writes it, tells whether the peer
  is filed under it.  `Index.Follows` says that an index is filed so, and `Index.Follows.followAll`
  that it stays so when index and chronicle go on together.

The two do not come to the same.  `[]` and `[#]` are one pattern and two subscriptions; so are two
keys with the same tokens of which one is joined.  `Silenced` says that a pattern was taken away by
a subscription that writes it in another way, and `lastOf_alike_iff_not_silenced` that nothing else
sets the two apart.
-/

set_option autoImplicit false

namespace ServiceBus

/-- Two subscriptions ask for the same messages by construction, however their patterns are
written. -/
def Subscription.Alike (s s' : Subscription) : Prop :=
  s.type = s'.type ∧ s.pattern.SamePattern s'.pattern

instance (s s' : Subscription) : Decidable (s.Alike s') := by
  unfold Subscription.Alike
  infer_instance

namespace Subscription.Alike

theorem refl (s : Subscription) : s.Alike s := ⟨rfl, .refl _⟩

theorem of_eq {s s' : Subscription} (h : s = s') : s.Alike s' := h ▸ refl s

theorem symm {s s' : Subscription} (h : s.Alike s') : s'.Alike s := ⟨h.1.symm, h.2.symm⟩

theorem trans {s s' s'' : Subscription} (h : s.Alike s') (h' : s'.Alike s'') : s.Alike s'' :=
  ⟨h.1.trans h'.1, h.2.trans h'.2⟩

end Subscription.Alike

namespace Directory

/-! ## The last of several changes -/

/-- What the last change says that is to a subscription of some kind, if there is one. -/
def lastOf (cs : List Change) (kind : Subscription → Bool) : Option Bool :=
  ((cs.filter fun c ↦ kind c.subscription).getLast?).map Change.enabled

@[simp]
theorem lastOf_nil (kind : Subscription → Bool) : lastOf [] kind = none := rfl

theorem lastOf_append (cs cs' : List Change) (kind : Subscription → Bool) :
    lastOf (cs ++ cs') kind = (lastOf cs' kind).or (lastOf cs kind) := by
  rw [lastOf, List.filter_append, List.getLast?_append, Option.map_or]
  rfl

theorem lastOf_singleton (c : Change) (kind : Subscription → Bool) :
    lastOf [c] kind = if kind c.subscription then some c.enabled else none := by
  cases h : kind c.subscription <;> simp [lastOf, h]

theorem lastOf_eq_none_iff {cs : List Change} {kind : Subscription → Bool} :
    lastOf cs kind = none ↔ ∀ c ∈ cs, ¬ kind c.subscription := by
  rw [lastOf, Option.map_eq_none_iff, List.getLast?_eq_none_iff, List.filter_eq_nil_iff]

/-- The last change of a kind has none of that kind after it. -/
theorem lastOf_eq_some_iff {cs : List Change} {kind : Subscription → Bool} {enabled : Bool} :
    lastOf cs kind = some enabled ↔
      ∃ before c after, cs = before ++ c :: after ∧ kind c.subscription ∧ c.enabled = enabled ∧
        ∀ c' ∈ after, ¬ kind c'.subscription := by
  rw [lastOf, Option.map_eq_some_iff]
  constructor
  · rintro ⟨c, hc, rfl⟩
    obtain ⟨firsts, hfirsts⟩ := List.getLast?_eq_some_iff.mp hc
    obtain ⟨before, rest, rfl, -, hrest⟩ := List.filter_eq_append_iff.mp hfirsts
    obtain ⟨between, after, rfl, -, hkind, hafter⟩ := List.filter_eq_cons_iff.mp hrest
    exact ⟨before ++ between, c, after, by simp, hkind, rfl,
      List.filter_eq_nil_iff.mp hafter⟩
  · rintro ⟨before, c, after, rfl, hkind, rfl, hafter⟩
    refine ⟨c, ?_, rfl⟩
    have hnone : after.filter (fun c ↦ kind c.subscription) = [] :=
      List.filter_eq_nil_iff.mpr hafter
    simp [hkind, hnone]

/-- The last change of a subscription's pattern takes it away, and writes it in another way than the
subscription. -/
def Silenced (cs : List Change) (s : Subscription) : Prop :=
  ∃ before c after, cs = before ++ c :: after ∧ c.subscription.Alike s ∧ c.subscription ≠ s ∧
    c.enabled = false ∧ ∀ c' ∈ after, ¬ c'.subscription.Alike s

theorem lastOf_of_silenced {cs : List Change} {s : Subscription} (h : Silenced cs s) :
    lastOf cs (fun s' ↦ s'.Alike s) = some false := by
  obtain ⟨before, c, after, hcs, halike, -, henabled, hafter⟩ := h
  exact lastOf_eq_some_iff.mpr
    ⟨before, c, after, hcs, by simpa using halike, henabled, by simpa using hafter⟩

/-- An enabled subscription keeps its pattern unless it is silenced. -/
theorem lastOf_alike_iff_not_silenced {cs : List Change} {s : Subscription}
    (h : lastOf cs (fun s' ↦ s' = s) = some true) :
    lastOf cs (fun s' ↦ s'.Alike s) = some true ↔ ¬ Silenced cs s := by
  refine ⟨fun hlast hsilenced ↦ ?_, fun hnot ↦ ?_⟩
  · rw [lastOf_of_silenced hsilenced] at hlast
    cases hlast
  · obtain ⟨before, c, after, rfl, hkind, henabled, -⟩ := lastOf_eq_some_iff.mp h
    have hs : c.subscription = s := by simpa using hkind
    cases hlast : lastOf (before ++ c :: after) (fun s' ↦ s'.Alike s) with
    | none =>
      -- the change that enabled the subscription is one of its pattern
      have hc := lastOf_eq_none_iff.mp hlast c (by simp)
      exact absurd (Subscription.Alike.of_eq hs) (by simpa using hc)
    | some enabled =>
      cases enabled with
      | true => rfl
      | false =>
        obtain ⟨before', c', after', heq, halike, hdisabled, hafter⟩ := lastOf_eq_some_iff.mp hlast
        refine absurd ⟨before', c', after', heq, by simpa using halike, ?_, hdisabled,
          by simpa using hafter⟩ hnot
        intro hs'
        -- else it is the last change of the subscription too
        have hfalse : lastOf (before ++ c :: after) (fun s' ↦ s' = s) = some false := by
          refine lastOf_eq_some_iff.mpr ⟨before', c', after', heq, by simpa using hs',
            hdisabled, ?_⟩
          intro c'' hc'' hs''
          have hs'' : c''.subscription = s := by simpa using hs''
          exact absurd (Subscription.Alike.of_eq hs'') (by simpa using hafter c'' hc'')
        rw [h] at hfalse
        cases hfalse

/-! ## Chronicles -/

/-- The accepted changes of each peer, oldest first. -/
def Chronicle : Type := PeerId → List Change

namespace Chronicle

/-- Nothing was accepted. -/
def empty : Chronicle := fun _ ↦ []

/-- Changes of a peer were accepted. -/
def note (l : Chronicle) (id : PeerId) (cs : List Change) : Chronicle :=
  fun id' ↦ if id' = id then l id' ++ cs else l id'

theorem note_nil (l : Chronicle) (id : PeerId) : l.note id [] = l := by
  funext id'
  simp [note]

theorem note_append (l : Chronicle) (id : PeerId) (cs cs' : List Change) :
    l.note id (cs ++ cs') = (l.note id cs).note id cs' := by
  funext id'
  by_cases h : id' = id <;> simp [note, h]

theorem lastOf_note (l : Chronicle) (id id' : PeerId) (cs : List Change)
    (kind : Subscription → Bool) :
    lastOf (l.note id cs id') kind =
      if id' = id then (lastOf cs kind).or (lastOf (l id') kind) else lastOf (l id') kind := by
  rw [note]
  split
  · rw [lastOf_append]
  · rfl

end Chronicle

/-! ## Filing -/

namespace Index

/-- The subscribers of every type are tidy. -/
def Tidy (x : Index) : Prop := ∀ type, (x.subscribers type).Tidy

/-- A peer with this id is filed under a subscription. -/
def HoldsId (x : Index) (s : Subscription) (id : PeerId) : Prop :=
  (x.subscribers s.type).HoldsId s.pattern id

theorem tidy_empty : Tidy {} := fun _ ↦ Subscribers.tidy_empty

theorem not_holdsId_empty (s : Subscription) (id : PeerId) : ¬ HoldsId {} s id :=
  Subscribers.not_holdsId_empty s.pattern id

theorem subscribers_add (x : Index) (p : PeerRef) (s : Subscription) (type : MessageType) :
    (x.add p s).subscribers type =
      if type = s.type then (x.subscribers type).add p s.pattern else x.subscribers type := by
  simp only [subscribers, add, Table.find?_insert]
  split
  · next h => simp [h]
  · rfl

/-- A type for which nobody is left is as one for which nobody ever was. -/
theorem subscribers_remove (x : Index) (p : PeerRef) (s : Subscription) (type : MessageType) :
    (x.remove p s).subscribers type =
      if type = s.type then
        let left := (x.subscribers type).remove p s.pattern
        if left.isEmpty then .empty else left
      else x.subscribers type := by
  cases hfind : x.byType.find? s.type with
  | none =>
    have hremove : x.remove p s = x := by simp [remove, hfind]
    have hempty : x.subscribers s.type = .empty := by simp [subscribers, hfind]
    rw [hremove]
    split
    · next h => simp [h, hempty]
    · rfl
  | some subscribers =>
    have hsub : x.subscribers s.type = subscribers := by simp [Index.subscribers, hfind]
    by_cases h : type = s.type
    · subst h
      rw [if_pos rfl, hsub]
      by_cases hleft : (subscribers.remove p s.pattern).isEmpty
      · simp [remove, hfind, hleft, Index.subscribers, Table.find?_erase]
      · simp [remove, hfind, hleft, Index.subscribers, Table.find?_insert]
    · rw [if_neg h]
      by_cases hleft : (subscribers.remove p s.pattern).isEmpty
      · simp [remove, hfind, hleft, h, Index.subscribers, Table.find?_erase]
      · simp [remove, hfind, hleft, h, Index.subscribers, Table.find?_insert]

theorem Tidy.add {x : Index} (h : x.Tidy) (p : PeerRef) (s : Subscription) : (x.add p s).Tidy := by
  intro type
  rw [subscribers_add]
  split
  · exact (h type).add p s.pattern
  · exact h type

theorem Tidy.remove {x : Index} (h : x.Tidy) (p : PeerRef) (s : Subscription) :
    (x.remove p s).Tidy := by
  intro type
  rw [subscribers_remove]
  split
  · dsimp only
    split
    · exact Subscribers.tidy_empty
    · exact (h type).remove p s.pattern
  · exact h type

theorem holdsId_add {x : Index} (h : x.Tidy) (p : PeerRef) (s s' : Subscription) (id : PeerId) :
    (x.add p s).HoldsId s' id ↔ x.HoldsId s' id ∨ (id = p.id ∧ s.Alike s') := by
  rw [HoldsId, subscribers_add]
  split
  · next htype =>
    rw [Subscribers.holdsId_add (h s'.type)]
    simp [HoldsId, Subscription.Alike, htype]
  · next htype =>
    have hnot : ¬ s.Alike s' := fun ha ↦ htype ha.1.symm
    simp [HoldsId, hnot]

theorem holdsId_remove {x : Index} (h : x.Tidy) (p : PeerRef) (s s' : Subscription)
    (id : PeerId) :
    (x.remove p s).HoldsId s' id ↔ x.HoldsId s' id ∧ ¬(id = p.id ∧ s.Alike s') := by
  rw [HoldsId, subscribers_remove]
  split
  · next htype =>
    have hleft : ((x.subscribers s'.type).remove p s.pattern).HoldsId s'.pattern id ↔
        x.HoldsId s' id ∧ ¬(id = p.id ∧ s.Alike s') := by
      rw [Subscribers.holdsId_remove (h s'.type)]
      simp [HoldsId, Subscription.Alike, htype]
    dsimp only
    split
    · next hempty =>
      rw [← hleft]
      exact iff_of_false (Subscribers.not_holdsId_empty _ _)
        (Subscribers.not_holdsId_of_isEmpty hempty _ _)
    · exact hleft
  · next htype =>
    have hnot : ¬ s.Alike s' := fun ha ↦ htype ha.1.symm
    simp [HoldsId, hnot]

/-- After a change the peer is filed or not as the change says, and all else is as before. -/
theorem holdsId_follow {x : Index} (h : x.Tidy) (p : PeerRef) (c : Change) (s : Subscription)
    (id : PeerId) :
    (x.follow p c).HoldsId s id ↔
      if id = p.id ∧ c.subscription.Alike s then c.enabled = true else x.HoldsId s id := by
  rw [follow]
  split
  · next henabled =>
    rw [holdsId_add h, henabled]
    split <;> simp_all
  · next hdisabled =>
    rw [holdsId_remove h]
    split <;> simp_all

theorem Tidy.follow {x : Index} (h : x.Tidy) (p : PeerRef) (c : Change) : (x.follow p c).Tidy := by
  rw [Index.follow]
  split
  · exact h.add p c.subscription
  · exact h.remove p c.subscription

theorem handlers_eq_behind (x : Index) (topic : Topic) :
    x.handlers topic = (x.subscribers topic.type).behind topic.key := by
  rw [handlers, subscribers]
  cases x.byType.find? topic.type with
  | some subscribers => rfl
  | none => simp [Subscribers.behind, Subscribers.empty, Trie.all, Trie.find, Trie.findJoined,
      firstOfEachId]

/-- The peers that handle a topic are those filed under a pattern that accepts its key. -/
theorem mem_ids_handlers {x : Index} (h : x.Tidy) {topic : Topic} {id : PeerId} :
    id ∈ (x.handlers topic).map PeerRef.id ↔
      ∃ pattern, x.HoldsId ⟨topic.type, pattern⟩ id ∧
        (topic.key.isEmpty = true ∨ pattern.accepts topic.key = true) := by
  rw [handlers_eq_behind, Subscribers.mem_ids_behind (h topic.type)]
  rfl

/-! ## An index that follows a chronicle -/

/-- A peer is filed under a subscription if the last change of its pattern says so. -/
structure Follows (x : Index) (l : Chronicle) : Prop where
  /-- The index is tidy. -/
  tidy : x.Tidy
  /-- The last change of a pattern decides. -/
  holdsId_iff : ∀ s id, x.HoldsId s id ↔ lastOf (l id) (fun s' ↦ s'.Alike s) = some true

theorem follows_empty : Follows {} .empty :=
  ⟨tidy_empty, fun s id ↦ by simp [not_holdsId_empty, Chronicle.empty]⟩

theorem Follows.follow {x : Index} {l : Chronicle} (h : x.Follows l) (p : PeerRef) (c : Change) :
    (x.follow p c).Follows (l.note p.id [c]) := by
  refine ⟨h.tidy.follow p c, fun s id ↦ ?_⟩
  rw [holdsId_follow h.tidy, Chronicle.lastOf_note, lastOf_singleton, h.holdsId_iff]
  by_cases hid : id = p.id
  · by_cases halike : c.subscription.Alike s <;> simp [hid, halike]
  · simp [hid]

/-- **Index and chronicle go on together.** -/
theorem Follows.followAll {x : Index} {l : Chronicle} (h : x.Follows l) (p : PeerRef)
    (cs : List Change) : (x.followAll p cs).Follows (l.note p.id cs) := by
  induction cs generalizing x l with
  | nil => rwa [Chronicle.note_nil]
  | cons c cs ih =>
    have hnext := ih (h.follow p c)
    rwa [← Chronicle.note_append] at hnext

end Index

end Directory

end ServiceBus
