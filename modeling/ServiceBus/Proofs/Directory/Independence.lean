import ServiceBus.Proofs.Directory.Holding
import ServiceBus.Proofs.Directory.Instances

/-!
# Events of different peers do not meddle with each other

Events of one peer have to be applied in their order; events of different peers come from different
sources, and how they are interleaved is up to chance.  It should not matter.

Two facts give that.  A deed changes nothing but its subject (`Registry.Follows.onlyAt_perform`):
neither what is known of another peer, nor where another peer is filed, nor the state of an instance
that is not that of the subject.  And what an event does to its peer hangs on nothing but what was
known of that peer (`Registry.LikeAt.apply`).  So what is known of a peer after some events is what
is known of it after those of them that are about it (`Registry.LikeAt.applyAll`), and any two
interleavings have the same of these.

All of this needs that no two peers have one instance, `Registry.Apart`, for a state is kept by
instance.  A new instance is different from all others, and a registration forgets all peers but its
own; so a client keeps them apart if whoever is registered is an instance that exists.
-/

set_option autoImplicit false

namespace ServiceBus

namespace Roster

variable {r : Roster} {p q : PeerRef}

theorem contact_modify_self (h : r.Valid p) (f : Contact → Contact) :
    (r.modify p f).contact p = f (r.contact p) := by
  have hslot : p.slot < r.cells.size := h
  simp [contact, modify, Array.getElem_modify, hslot]

theorem valid_modify (h : r.Valid p) (q : PeerRef) (f : Contact → Contact) :
    (r.modify q f).Valid p := by
  simpa [Valid, modify] using h

theorem contact_add_of_valid (h : r.Valid p) (q : Peer) : (r.add q).2.contact p = r.contact p := by
  have hslot : p.slot < r.cells.size := h
  simp [contact, add, Array.getElem?_push, Nat.ne_of_lt hslot]

theorem valid_add_of_valid (h : r.Valid p) (q : Peer) : (r.add q).2.Valid p := by
  have hslot : p.slot < r.cells.size := h
  simpa [Valid, add] using Nat.lt_succ_of_lt hslot

end Roster

namespace Directory

namespace Registry

/-! ## A deed changes nothing but its subject -/

/-- What changes is only about one peer and its instance. -/
structure OnlyAt (id : PeerId) (r r' : Registry) : Prop where
  /-- The same is known of all other peers. -/
  members : ∀ id', id' ≠ id → r'.members.find? id' = r.members.find? id'
  /-- All other peers are filed where they were. -/
  filed : ∀ s id', id' ≠ id → (r'.index.HoldsId s id' ↔ r.index.HoldsId s id')
  /-- All instances are still there. -/
  valid : ∀ p, r.roster.Valid p → r'.roster.Valid p
  /-- Instances that are not that of the peer are in the state they were in. -/
  contact : ∀ p, r.roster.Valid p → (∀ q, r.peer? id = some q → q.slot ≠ p.slot) →
    r'.roster.contact p = r.roster.contact p

namespace OnlyAt

theorem refl (id : PeerId) (r : Registry) : OnlyAt id r r :=
  ⟨fun _ _ ↦ rfl, fun _ _ _ ↦ Iff.rfl, fun _ h ↦ h, fun _ _ _ ↦ rfl⟩

variable {r : Registry} {id : PeerId} {m : Member}

/-- The index follows changes of the peer. -/
theorem holdsId_followAll (htidy : r.index.Tidy) (hown : m.peer.id = id) (cs : List Change)
    (s : Subscription) {id' : PeerId} (hid : id' ≠ id) :
    (r.index.followAll m.peer cs).HoldsId s id' ↔ r.index.HoldsId s id' := by
  rw [Index.holdsId_followAll htidy, hown, if_neg hid]

/-- The state of the instance of the peer is changed. -/
theorem modify (hm : r.members.find? id = some m) (f : Contact → Contact) :
    OnlyAt id r { r with roster := r.roster.modify m.peer f } where
  members _ _ := rfl
  filed _ _ _ := Iff.rfl
  valid _ h := Roster.valid_modify h m.peer f
  contact _ _ hother :=
    Roster.contact_modify_of_ne r.roster (hother m.peer (peer?_of_known hm)) f

/-- An instance is made. -/
theorem addInstance (id : PeerId) (r : Registry) (p : Peer) :
    OnlyAt id r { r with roster := (r.roster.add p).2 } where
  members _ _ := rfl
  filed _ _ _ := Iff.rfl
  valid _ h := Roster.valid_add_of_valid h p
  contact _ h _ := Roster.contact_add_of_valid h p

/-- Only states of instances change, and then the peer is put. -/
theorem andPut {roster : Roster} (h : OnlyAt id r { r with roster }) (htidy : r.index.Tidy)
    (hown : m.peer.id = id) (changed : Interests × List Change) :
    OnlyAt id r (Registry.put { r with roster } m changed) where
  members id' hid := by rw [find?_put, hown, if_neg hid]
  filed s id' hid := holdsId_followAll htidy hown changed.2 s hid
  valid := h.valid
  contact := h.contact

/-- The peer is put. -/
theorem put (htidy : r.index.Tidy) (hown : m.peer.id = id) (changed : Interests × List Change) :
    OnlyAt id r (r.put m changed) :=
  (refl id r).andPut htidy hown changed

theorem amend (type : MessageType) {change : Member → Registry × List Notice}
    (hchange : ∀ m, r.members.find? id = some m → OnlyAt id r (change m).1) :
    OnlyAt id r (r.amend id type change).1 := by
  rw [Registry.amend]
  cases hm : r.members.find? id with
  | none => exact .refl id r
  | some m => exact hchange m hm

theorem setResponding (r : Registry) (id : PeerId) (type : MessageType) (responding : Bool) :
    OnlyAt id r (r.setResponding id type responding).1 :=
  amend type fun _ hm ↦ modify hm _

theorem stop (r : Registry) (b : Stopped) : OnlyAt b.peer r (r.apply (.stopped b)).1 := by
  refine amend _ fun m hm ↦ ?_
  split
  · exact .refl b.peer r
  · have hmodify := modify hm fun c ↦ { c with up := false, responding := false }
    refine ⟨fun id' hid ↦ ?_, hmodify.filed, hmodify.valid, hmodify.contact⟩
    exact (Table.find?_insert ..).trans (if_neg hid)

end OnlyAt

namespace Follows

variable {r : Registry} {l : Chronicle}

theorem onlyAt_amendInterests (h : r.Follows l) (id : PeerId) (type : MessageType)
    (change : Interests → Interests × List Change) :
    OnlyAt id r (r.amendInterests id type change).1 :=
  OnlyAt.amend type fun m hm ↦ .put h.index.tidy (h.own id m hm) (change m.interests)

theorem onlyAt_learn (h : r.Follows l) (d : Descriptor Peer) (refresh : Bool) :
    OnlyAt d.peer.id r (r.learn d refresh).1 := by
  cases hm : r.members.find? d.peer.id with
  | none =>
    rw [learn_of_unknown hm, Registry.addMember]
    exact (OnlyAt.addInstance d.peer.id r d.peer).andPut h.index.tidy (by rfl) _
  | some m =>
    cases hstale : Instant.isStale m.timestamp d.timestamp with
    | true =>
      rw [learn_of_stale hm hstale]
      exact .refl d.peer.id r
    | false =>
      have hown : (m.refreshed d refresh).peer.id = d.peer.id := h.own _ m hm
      rw [learn_of_known hm hstale]
      cases refresh with
      | true => exact (OnlyAt.modify hm _).andPut h.index.tidy hown _
      | false => exact .put h.index.tidy hown _

theorem onlyAt_decommission (h : r.Follows l) (b : Decommissioned) :
    OnlyAt b.peer r (r.apply (.decommissioned b)).1 := by
  refine OnlyAt.amend _ fun m hm ↦ ?_
  refine ⟨fun id' hid ↦ ?_, fun s id' hid ↦ ?_, fun _ h ↦ h, fun _ _ _ ↦ rfl⟩
  · exact (Table.find?_erase ..).trans (if_neg hid)
  · exact OnlyAt.holdsId_followAll h.index.tidy (h.own _ m hm) m.interests.withdrawal s hid

theorem onlyAt_apply (h : r.Follows l) (e : Event) : OnlyAt e.peer r (r.apply e).1 := by
  cases e with
  | started b => exact h.onlyAt_learn b.descriptor true
  | stopped b => exact .stop r b
  | decommissioned b => exact h.onlyAt_decommission b
  | subscriptionsUpdated b => exact h.onlyAt_learn b.descriptor false
  | subscriptionsAdded b => exact h.onlyAt_amendInterests b.peer _ _
  | subscriptionsRemoved b => exact h.onlyAt_amendInterests b.peer _ _
  | subscriptionsForTypesUpdated b => exact h.onlyAt_amendInterests b.peer _ _
  | notResponding b => exact .setResponding r b.peer _ false
  | responding b => exact .setResponding r b.peer _ true

/-- **A deed changes nothing but its subject**, unless it is a restart. -/
theorem onlyAt_perform (h : r.Follows l) {deed : Deed} (hforgets : deed.forgets = false) :
    OnlyAt deed.subject r (deed.perform r) := by
  cases deed with
  | restart self => cases hforgets
  | learn d => exact h.onlyAt_learn d true
  | apply e => exact h.onlyAt_apply e
  | replace id ss timestamp =>
    cases hm : r.members.find? id with
    | none =>
      rw [Deed.perform, replaceInterests_of_unknown hm]
      exact .refl id r
    | some m =>
      rw [Deed.perform, replaceInterests_of_known hm]
      exact .put h.index.tidy (m := { m with timestamp }) (h.own id m hm) _

end Follows

/-! ## No two peers have one instance -/

/-- The members have instances that exist, each its own. -/
structure Apart (r : Registry) : Prop where
  /-- The registry follows what was told. -/
  follows : ∃ l, r.Follows l
  /-- The instance of a known peer exists. -/
  valid : ∀ id p, r.peer? id = some p → r.roster.Valid p
  /-- Different peers have different instances. -/
  slot_inj : ∀ id id' p p', r.peer? id = some p → r.peer? id' = some p' → p.slot = p'.slot →
    id = id'

/-- An instance that a peer has after a deed was its own before, or is new. -/
theorem Follows.peer?_perform_cases {r : Registry} {l : Chronicle} (h : r.Follows l) {deed : Deed}
    (hforgets : deed.forgets = false) {id : PeerId} {p : PeerRef}
    (hp : (deed.perform r).peer? id = some p) :
    r.peer? id = some p ∨
      id = deed.subject ∧ p.slot = r.roster.cells.size ∧ (deed.perform r).roster.Valid p := by
  have hlearn : ∀ (d : Descriptor Peer) (refresh : Bool),
      (r.learn d refresh).1.peer? id = some p → r.peer? id = some p ∨
        id = d.peer.id ∧ p.slot = r.roster.cells.size ∧ (r.learn d refresh).1.roster.Valid p := by
    intro d refresh hp
    cases hm : r.members.find? d.peer.id with
    | none =>
      rw [learn_of_unknown hm] at hp ⊢
      rw [Registry.addMember, peer?_put] at hp
      split at hp
      · next hid =>
        obtain rfl := Option.some.inj hp
        exact Or.inr ⟨hid, rfl, Roster.valid_add r.roster d.peer⟩
      · exact Or.inl hp
    | some m =>
      rw [h.peer?_learn, Deed.learnedInstance, peer?_of_known hm, Option.getD_some,
        ← peer?_of_known hm, ← peer?_same] at hp
      exact Or.inl hp
  cases deed with
  | restart self => cases hforgets
  | learn d => exact hlearn d true hp
  | replace id' ss timestamp =>
    rw [h.peer?_perform] at hp
    exact Or.inl ((peer?_same r id id').trans hp)
  | apply e =>
    cases e with
    | started b => exact hlearn b.descriptor true hp
    | subscriptionsUpdated b => exact hlearn b.descriptor false hp
    | decommissioned b =>
      rw [Deed.perform, peer?_decommission] at hp
      split at hp
      · cases hp
      · exact Or.inl hp
    | _ =>
      rw [h.peer?_perform] at hp
      exact Or.inl ((peer?_same ..).trans hp)

namespace Apart

variable {r : Registry}

theorem nobody (roster : Roster) : Apart { roster } where
  follows := ⟨.empty, .nobody roster⟩
  valid _ _ hp := by cases hp
  slot_inj _ _ _ _ hp := by cases hp

/-- Who registers is the only one then. -/
theorem restart (self : Descriptor PeerRef) (hself : r.roster.Valid self.peer) :
    (r.restart self).Apart := by
  have hpeer : ∀ id p, (r.restart self).peer? id = some p → id = self.peer.id ∧ p = self.peer := by
    intro id p hp
    rw [Registry.restart, addMember, peer?_put] at hp
    split at hp
    · next hid => exact ⟨hid, (Option.some.inj hp).symm⟩
    · cases hp
  refine ⟨⟨_, .restart self r⟩, fun id p hp ↦ ?_, fun id id' p p' hp hp' _ ↦ ?_⟩
  · rw [(hpeer id p hp).2]
    exact hself
  · rw [(hpeer id p hp).1, (hpeer id' p' hp').1]

theorem perform (h : r.Apart) (deed : Deed)
    (hself : ∀ self, deed = .restart self → r.roster.Valid self.peer) :
    (deed.perform r).Apart := by
  cases hforgets : deed.forgets with
  | true =>
    cases deed with
    | restart self => exact restart self (hself self rfl)
    | _ => cases hforgets
  | false =>
    obtain ⟨l, hfollows⟩ := h.follows
    refine ⟨⟨_, hfollows.perform deed⟩, fun id p hp ↦ ?_, fun id id' p p' hp hp' hslot ↦ ?_⟩
    · obtain hbefore | ⟨-, -, hvalid⟩ := hfollows.peer?_perform_cases hforgets hp
      · exact (hfollows.onlyAt_perform hforgets).valid p (h.valid id p hbefore)
      · exact hvalid
    · -- the slot of a new instance is after those of all others
      obtain hbefore | ⟨hid, hnew, -⟩ := hfollows.peer?_perform_cases hforgets hp
      · obtain hbefore' | ⟨-, hnew', -⟩ := hfollows.peer?_perform_cases hforgets hp'
        · exact h.slot_inj id id' p p' hbefore hbefore' hslot
        · have hvalid : p.slot < r.roster.cells.size := h.valid id p hbefore
          omega
      · obtain hbefore' | ⟨hid', -, -⟩ := hfollows.peer?_perform_cases hforgets hp'
        · have hvalid : p'.slot < r.roster.cells.size := h.valid id' p' hbefore'
          omega
        · rw [hid, hid']

theorem performAll (h : r.Apart) {deeds : List Deed}
    (hforgets : ∀ deed ∈ deeds, deed.forgets = false) : (Deed.performAll r deeds).Apart := by
  induction deeds generalizing r with
  | nil => exact h
  | cons deed deeds ih =>
    refine ih (h.perform deed fun self hself ↦ ?_) fun d hd ↦ hforgets d (List.mem_cons_of_mem _ hd)
    have hfirst := hforgets deed List.mem_cons_self
    rw [hself] at hfirst
    cases hfirst

theorem apply (h : r.Apart) (e : Event) : (r.apply e).1.Apart :=
  h.perform (.apply e) fun _ hself ↦ by cases hself

theorem tidy (h : r.Apart) : r.index.Tidy := h.follows.elim fun _ hl ↦ hl.index.tidy

theorem own (h : r.Apart) {id : PeerId} {m : Member} (hm : r.members.find? id = some m) :
    m.peer.id = id := h.follows.elim fun _ hl ↦ hl.own id m hm

theorem valid_of_known (h : r.Apart) {id : PeerId} {m : Member}
    (hm : r.members.find? id = some m) : r.roster.Valid m.peer :=
  h.valid id m.peer (peer?_of_known hm)

end Apart

/-! ## What an event does to its peer -/

/-- The same is known of a peer, but for where its state is kept. -/
structure LikeAt (id : PeerId) (r r' : Registry) : Prop where
  /-- The peer is unknown to both, or both know the same of it. -/
  member : (r.members.find? id = none ∧ r'.members.find? id = none) ∨
    ∃ m p, r.members.find? id = some m ∧ r'.members.find? id = some { m with peer := p } ∧
      r.roster.contact m.peer = r'.roster.contact p
  /-- The peer is filed under the same subscriptions. -/
  filed : ∀ s, r.index.HoldsId s id ↔ r'.index.HoldsId s id

namespace LikeAt

variable {id : PeerId} {r r' : Registry}

theorem refl (id : PeerId) (r : Registry) : LikeAt id r r := by
  refine ⟨?_, fun _ ↦ Iff.rfl⟩
  cases hm : r.members.find? id with
  | none => exact Or.inl ⟨rfl, rfl⟩
  | some m => exact Or.inr ⟨m, m.peer, rfl, rfl, rfl⟩

theorem symm (h : LikeAt id r r') : LikeAt id r' r := by
  refine ⟨?_, fun s ↦ (h.filed s).symm⟩
  obtain ⟨hnone, hnone'⟩ | ⟨m, p, hm, hm', hcontact⟩ := h.member
  · exact Or.inl ⟨hnone', hnone⟩
  · exact Or.inr ⟨{ m with peer := p }, m.peer, hm', hm, hcontact.symm⟩

theorem trans {r'' : Registry} (h : LikeAt id r r') (h' : LikeAt id r' r'') :
    LikeAt id r r'' := by
  refine ⟨?_, fun s ↦ (h.filed s).trans (h'.filed s)⟩
  obtain ⟨hnone, hnone₁⟩ | ⟨m, p, hm, hm₁, hcontact⟩ := h.member
  · obtain ⟨-, hnone₂⟩ | ⟨m', -, hm₂, -⟩ := h'.member
    · exact Or.inl ⟨hnone, hnone₂⟩
    · cases hnone₁.symm.trans hm₂
  · obtain ⟨hnone₂, -⟩ | ⟨m', p', hm₂, hm', hcontact'⟩ := h'.member
    · cases hnone₂.symm.trans hm₁
    · obtain rfl := Option.some.inj (hm₁.symm.trans hm₂)
      exact Or.inr ⟨m, p', hm, hm', hcontact.trans hcontact'⟩

/-- What is only about another peer is passed over. -/
theorem of_onlyAt (h : r.Apart) {id' : PeerId} (hid : id ≠ id') (honly : OnlyAt id' r r') :
    LikeAt id r r' := by
  refine ⟨?_, fun s ↦ (honly.filed s id hid).symm⟩
  cases hm : r.members.find? id with
  | none => exact Or.inl ⟨rfl, (honly.members id hid).trans hm⟩
  | some m =>
    refine Or.inr ⟨m, m.peer, rfl, (honly.members id hid).trans hm, ?_⟩
    refine (honly.contact m.peer (h.valid_of_known hm) fun q hq hslot ↦ hid ?_).symm
    exact (h.slot_inj id' id q m.peer hq (peer?_of_known hm) hslot).symm

/-- The peer is put on both sides, after its state has been made the same. -/
theorem put (h : LikeAt id r r') (htidy : r.index.Tidy) (htidy' : r'.index.Tidy) {m : Member}
    {p : PeerRef} (hm : m.peer.id = id) (hp : p.id = id) {roster roster' : Roster}
    (hcontact : roster.contact m.peer = roster'.contact p) (changed : Interests × List Change) :
    LikeAt id (Registry.put { r with roster } m changed)
      (Registry.put { r' with roster := roster' } { m with peer := p } changed) := by
  refine ⟨Or.inr ⟨{ m with interests := changed.1 }, p, ?_, ?_, hcontact⟩, fun s ↦ ?_⟩
  · rw [find?_put, hm, if_pos rfl]
  · rw [find?_put, hp, if_pos rfl]
  · have hindex := Index.holdsId_followAll htidy m.peer changed.2 s id
    have hindex' := Index.holdsId_followAll htidy' p changed.2 s id
    rw [hm, if_pos rfl, h.filed] at hindex
    rw [hp, if_pos rfl] at hindex'
    exact hindex.trans hindex'.symm

/-- A peer that is known to one is known to the other. -/
theorem amend (h : LikeAt id r r') (type : MessageType)
    {change change' : Member → Registry × List Notice}
    (hchange : ∀ m p, r.members.find? id = some m →
      r'.members.find? id = some { m with peer := p } →
      r.roster.contact m.peer = r'.roster.contact p →
      LikeAt id (change m).1 (change' { m with peer := p }).1) :
    LikeAt id (r.amend id type change).1 (r'.amend id type change').1 := by
  rw [Registry.amend, Registry.amend]
  obtain ⟨hnone, hnone'⟩ | ⟨m, p, hm, hm', hcontact⟩ := h.member
  · rw [hnone, hnone']
    exact h
  · rw [hm, hm']
    exact hchange m p hm hm' hcontact

section

variable (ha : r.Apart) (ha' : r'.Apart)

include ha ha'

/-- A change of the state comes to the same on both sides. -/
theorem contact_modify {m : Member} {p : PeerRef} (hm : r.members.find? id = some m)
    (hm' : r'.members.find? id = some { m with peer := p })
    (hcontact : r.roster.contact m.peer = r'.roster.contact p) (f : Contact → Contact) :
    (r.roster.modify m.peer f).contact m.peer = (r'.roster.modify p f).contact p := by
  rw [Roster.contact_modify_self (ha.valid_of_known hm),
    Roster.contact_modify_self (ha'.valid_of_known hm'), hcontact]

theorem amendInterests (h : LikeAt id r r') (type : MessageType)
    (change : Interests → Interests × List Change) :
    LikeAt id (r.amendInterests id type change).1 (r'.amendInterests id type change).1 :=
  h.amend type fun m _ hm hm' hcontact ↦
    h.put ha.tidy ha'.tidy (ha.own hm) (ha'.own hm') hcontact (change m.interests)

theorem setResponding (h : LikeAt id r r') (type : MessageType) (responding : Bool) :
    LikeAt id (r.setResponding id type responding).1 (r'.setResponding id type responding).1 :=
  h.amend type fun m p hm hm' hcontact ↦
    ⟨Or.inr ⟨m, p, hm, hm', contact_modify ha ha' hm hm' hcontact _⟩, h.filed⟩

theorem learn {d : Descriptor Peer} (h : LikeAt d.peer.id r r') (refresh : Bool) :
    LikeAt d.peer.id (r.learn d refresh).1 (r'.learn d refresh).1 := by
  obtain ⟨hnone, hnone'⟩ | ⟨m, p, hm, hm', hcontact⟩ := h.member
  · rw [learn_of_unknown hnone, learn_of_unknown hnone', addMember, addMember]
    refine h.put (p := (r'.roster.add d.peer).1) ha.tidy ha'.tidy rfl rfl ?_ _
    exact (Roster.contact_add ..).trans (Roster.contact_add ..).symm
  · cases hstale : Instant.isStale m.timestamp d.timestamp with
    | true =>
      rw [learn_of_stale hm hstale, learn_of_stale hm' hstale]
      exact h
    | false =>
      rw [learn_of_known hm hstale, learn_of_known hm' hstale]
      have hown : m.peer.id = d.peer.id := ha.own hm
      have hown' : p.id = d.peer.id := ha'.own hm'
      refine h.put (m := m.refreshed d refresh) ha.tidy ha'.tidy hown hown' ?_ _
      cases refresh with
      | true => exact contact_modify ha ha' hm hm' hcontact _
      | false => exact hcontact

theorem stop {b : Stopped} (h : LikeAt b.peer r r') :
    LikeAt b.peer (r.apply (.stopped b)).1 (r'.apply (.stopped b)).1 := by
  refine h.amend _ fun m p hm hm' hcontact ↦ ?_
  dsimp only
  split
  · exact h
  · refine ⟨Or.inr ⟨{ m with timestamp := b.timestamp }, p, ?_, ?_,
      contact_modify ha ha' hm hm' hcontact _⟩, h.filed⟩
    · exact (Table.find?_insert ..).trans (if_pos rfl)
    · exact (Table.find?_insert ..).trans (if_pos rfl)

theorem decommission {b : Decommissioned} (h : LikeAt b.peer r r') :
    LikeAt b.peer (r.apply (.decommissioned b)).1 (r'.apply (.decommissioned b)).1 := by
  refine h.amend _ fun m p hm hm' _ ↦ ?_
  refine ⟨Or.inl ⟨(Table.find?_erase ..).trans (if_pos rfl),
    (Table.find?_erase ..).trans (if_pos rfl)⟩, fun s ↦ ?_⟩
  have hindex := Index.holdsId_followAll ha.tidy m.peer m.interests.withdrawal s b.peer
  have hindex' := Index.holdsId_followAll ha'.tidy p m.interests.withdrawal s b.peer
  have hown' : p.id = b.peer := ha'.own hm'
  rw [ha.own hm, if_pos rfl, h.filed] at hindex
  rw [hown', if_pos rfl] at hindex'
  exact hindex.trans hindex'.symm

/-- **What an event does to its peer hangs on what was known of that peer.** -/
theorem apply {e : Event} (h : LikeAt e.peer r r') :
    LikeAt e.peer (r.apply e).1 (r'.apply e).1 := by
  cases e with
  | started b => exact learn ha ha' (d := b.descriptor) h true
  | stopped b => exact h.stop ha ha'
  | decommissioned b => exact h.decommission ha ha'
  | subscriptionsUpdated b => exact learn ha ha' (d := b.descriptor) h false
  | subscriptionsAdded b => exact h.amendInterests ha ha' _ _
  | subscriptionsRemoved b => exact h.amendInterests ha ha' _ _
  | subscriptionsForTypesUpdated b => exact h.amendInterests ha ha' _ _
  | notResponding b => exact h.setResponding ha ha' _ false
  | responding b => exact h.setResponding ha ha' _ true

/-- **What is known of a peer after some events** is what is known of it after those of them that
are about it. -/
theorem applyAll (h : LikeAt id r r') (es : List Event) :
    LikeAt id (r.applyAll es).1 (r'.applyAll (es.filter fun e ↦ e.peer = id)).1 := by
  induction es generalizing r r' with
  | nil => exact h
  | cons e es ih =>
    by_cases hid : e.peer = id
    · rw [List.filter_cons_of_pos (by simpa using hid)]
      subst hid
      exact ih (ha.apply e) (ha'.apply e) (h.apply ha ha')
    · rw [List.filter_cons_of_neg (by simpa using hid)]
      obtain ⟨l, hfollows⟩ := ha.follows
      have hother := of_onlyAt ha (Ne.symm hid) (hfollows.onlyAt_apply e)
      exact ih (ha.apply e) ha' (hother.symm.trans h)

/-- The same is told of the peer. -/
theorem told?_eq (h : LikeAt id r r') : r.told? id = r'.told? id := by
  obtain ⟨hnone, hnone'⟩ | ⟨m, p, hm, hm', hcontact⟩ := h.member
  · rw [told?_of_unknown hnone, told?_of_unknown hnone']
  · have hpeer : r.roster.peer m.peer = r'.roster.peer p :=
      congrArg₂ Peer.mk ((ha.own hm).trans (ha'.own hm').symm) hcontact
    rw [told?_of_known hm, told?_of_known hm', hpeer]
    rfl

end

end LikeAt

/-- Whoever knows the same of every peer answers alike. -/
theorem answersLike_of_likeAt {r r' : Registry} (ha : r.Apart) (ha' : r'.Apart)
    (h : ∀ id, LikeAt id r r') : r.AnswersLike r' := by
  refine ⟨fun id ↦ (h id).told?_eq ha ha', fun topic id ↦ ?_⟩
  rw [handlers, handlers, Index.mem_ids_handlers ha.tidy, Index.mem_ids_handlers ha'.tidy]
  simp only [(h id).filed]

theorem Apart.applyAll {r : Registry} (h : r.Apart) (es : List Event) :
    (r.applyAll es).1.Apart := by
  rw [← Deed.performAll_apply]
  refine h.performAll fun deed hdeed ↦ ?_
  obtain ⟨e, -, rfl⟩ := List.mem_map.mp hdeed
  rfl

/-- **The order of events of different peers does not matter**: two lists of events answer alike if
they have the same events of each peer in the same order. -/
theorem answersLike_applyAll {r : Registry} (ha : r.Apart) {es es' : List Event}
    (h : ∀ id, es.filter (fun e ↦ e.peer = id) = es'.filter fun e ↦ e.peer = id) :
    (r.applyAll es).1.AnswersLike (r.applyAll es').1 := by
  refine answersLike_of_likeAt (ha.applyAll es) (ha.applyAll es') fun id ↦ ?_
  have hleft := (LikeAt.refl id r).applyAll ha ha es
  have hright := (LikeAt.refl id r).applyAll ha ha es'
  rw [h id] at hleft
  exact hleft.trans hright.symm

end Registry

/-! ## Interleavings -/

/-- The events of two lists come in, in the order of each of them. -/
inductive Event.Interleaves : List Event → List Event → List Event → Prop
  | nil : Interleaves [] [] []
  /-- The next one is of the first list. -/
  | first {es es' l : List Event} (e : Event) (h : Interleaves es es' l) :
    Interleaves (e :: es) es' (e :: l)
  /-- The next one is of the second list. -/
  | second {es es' l : List Event} (e : Event) (h : Interleaves es es' l) :
    Interleaves es (e :: es') (e :: l)

/-- An interleaving of events of different peers has the events of each peer in their order. -/
theorem Event.Interleaves.filter_eq {es es' l : List Event} (h : Interleaves es es' l)
    (hpeers : ∀ e ∈ es, ∀ e' ∈ es', e.peer ≠ e'.peer) (id : PeerId) :
    l.filter (fun e ↦ e.peer = id) = (es ++ es').filter fun e ↦ e.peer = id := by
  rw [List.filter_append]
  induction h with
  | nil => rfl
  | first e h ih =>
    have ih := ih fun e₁ he₁ e₂ he₂ ↦ hpeers e₁ (List.mem_cons_of_mem _ he₁) e₂ he₂
    rw [List.filter_cons, List.filter_cons, ih]
    split <;> rfl
  | second e h ih =>
    have ih := ih fun e₁ he₁ e₂ he₂ ↦ hpeers e₁ he₁ e₂ (List.mem_cons_of_mem _ he₂)
    rw [List.filter_cons, List.filter_cons, ih]
    split
    · next hid =>
      -- then the first list has no event of the peer
      rw [List.filter_eq_nil_iff.mpr fun e₁ he₁ hid₁ ↦ hpeers e₁ he₁ e List.mem_cons_self ?_]
      · rfl
      · rw [of_decide_eq_true hid₁, of_decide_eq_true hid]
    · rfl

namespace Situation

/-! ## Runs -/

/-- Whoever is registered in a run is an instance that exists. -/
def RegistersExisting (s : Situation) (acts : List Act) : Prop :=
  ∀ before self ss now seed after, acts = before ++ .call (.register self ss) now seed :: after →
    (s.run before).client.registry.roster.Valid self

theorem RegistersExisting.tail {s : Situation} {act : Act} {acts : List Act}
    (h : s.RegistersExisting (act :: acts)) : (s.step act).RegistersExisting acts := by
  rintro before self ss now seed after rfl
  exact h (act :: before) self ss now seed after rfl

theorem forgets_of_mem_heldDeeds {c : Client} {deed : Deed} (h : deed ∈ c.heldDeeds) :
    deed.forgets = false := by
  obtain ⟨e, -, rfl⟩ := List.mem_map.mp h
  rfl

/-- Only a call to register forgets anybody, and it does nothing else. -/
theorem forgets_or_registers (s : Situation) (act : Act) :
    (∀ deed ∈ s.deeds act, deed.forgets = false) ∨
      ∃ self ss now seed, act = .call (.register self ss) now seed ∧
        s.deeds act = [.restart (s.client.ownDescriptor self ss)] := by
  cases act with
  | event e =>
    refine Or.inl fun deed hdeed ↦ ?_
    rw [deeds, Client.deedsOfEvent] at hdeed
    split at hdeed
    · cases hdeed
    · rw [List.mem_singleton.mp hdeed]
      rfl
  | answer place answer now =>
    refine Or.inl fun deed hdeed ↦ ?_
    rw [deeds] at hdeed
    cases hwaiting : s.waiting[place]? with
    | none => rw [hwaiting] at hdeed; cases hdeed
    | some a =>
      rw [hwaiting, Option.elim_some, Client.deedsOfAnswer] at hdeed
      split at hdeed
      · obtain hlearn | hheld := List.mem_append.mp hdeed
        · obtain ⟨d, -, rfl⟩ := List.mem_map.mp hlearn
          rfl
        · exact forgets_of_mem_heldDeeds hheld
      · split at hdeed
        · exact forgets_of_mem_heldDeeds hdeed
        · cases hdeed
      · cases hdeed
  | call call now seed =>
    cases call with
    | register self ss =>
      cases hstamp : s.client.stamp.1 with
      | none =>
        refine Or.inl fun deed hdeed ↦ ?_
        rw [deeds, Client.deedsOfCall, if_pos hstamp] at hdeed
        cases hdeed
      | some t =>
        exact Or.inr ⟨self, ss, now, seed, rfl, if_neg (by simp [hstamp])⟩
    | update ss =>
      refine Or.inl fun deed hdeed ↦ ?_
      rw [deeds, Client.deedsOfCall] at hdeed
      split at hdeed
      · rw [List.mem_singleton.mp hdeed]
        rfl
      · cases hdeed
    | unregister => exact Or.inl fun deed hdeed ↦ by cases hdeed

theorem apart_step {s : Situation} (h : s.client.registry.Apart) {act : Act}
    (hself : ∀ self ss now seed, act = .call (.register self ss) now seed →
      s.client.registry.roster.Valid self) : (s.step act).client.registry.Apart := by
  rw [registry_step]
  obtain hforgets | ⟨self, ss, now, seed, hact, hdeeds⟩ := s.forgets_or_registers act
  · exact h.performAll hforgets
  · rw [hdeeds]
    exact Registry.Apart.restart _ (hself self ss now seed hact)

/-- A client keeps the peers apart. -/
theorem apart_run {s : Situation} (h : s.client.registry.Apart) {acts : List Act}
    (hexisting : s.RegistersExisting acts) : (s.run acts).client.registry.Apart := by
  induction acts generalizing s with
  | nil => exact h
  | cons act acts ih =>
    refine ih (apart_step h fun self ss now seed hact ↦ ?_) hexisting.tail
    exact hexisting [] self ss now seed acts (hact ▸ rfl)

/-- **Events of different peers are independent.**  In every situation that a client can get into,
let two lists of events come in of which no two are about one peer, interleaved in one way or in
another.  In the end the same is told of every peer, and the same peers handle every topic. -/
theorem answersLike_interleaved {settings : Settings} {clock : Clock} {roster : Roster}
    {acts : List Act} (hexisting : (start settings clock roster).RegistersExisting acts)
    {es es' l l' : List Event} (hpeers : ∀ e ∈ es, ∀ e' ∈ es', e.peer ≠ e'.peer)
    (hl : Event.Interleaves es es' l) (hl' : Event.Interleaves es es' l') :
    ((start settings clock roster).run (acts ++ l.map .event)).client.registry.AnswersLike
      ((start settings clock roster).run (acts ++ l'.map .event)).client.registry := by
  rw [run_append, run_append]
  have hapart : ((start settings clock roster).run acts).client.registry.Apart :=
    apart_run (.nobody roster) hexisting
  cases hheld : ((start settings clock roster).run acts).client.held with
  | none =>
    rw [registry_run_events hheld, registry_run_events hheld]
    refine Registry.answersLike_applyAll hapart fun id ↦ ?_
    rw [hl.filter_eq hpeers, hl'.filter_eq hpeers]
  | some held =>
    rw [registry_run_events_of_held hheld, registry_run_events_of_held hheld]
    exact .refl _

/-- A peer comes with a subscription. -/
def comes : Event := .started ⟨told [.toAll fakeEvent] 0⟩

/-- The peer does not respond any more. -/
def fallsSilent : Event := .notResponding ⟨⟨"Abc.P.0"⟩⟩

/-- The local peer gives up a subscription. -/
def selfGivesUp : Event :=
  .subscriptionsRemoved ⟨⟨"Abc.Self.0"⟩, [.toAll fakeEvent], some (afterNoon 10)⟩

/-- If the local peer gives up the subscription first, nobody asks for its type for a while.  In the
end that cannot be seen. -/
theorem answersLike_selfGivesUp :
    (withServer.run (registers [.toAll fakeEvent] ++
      [comes, selfGivesUp, fallsSilent].map .event)).client.registry.AnswersLike
      (withServer.run (registers [.toAll fakeEvent] ++
        [selfGivesUp, comes, fallsSilent].map .event)).client.registry ∧
    ((withServer.run (registers [.toAll fakeEvent] ++
      [selfGivesUp].map .event)).client.registry.handlers ⟨fakeEvent, .empty⟩ = [] ∧
    ((withServer.run (registers [.toAll fakeEvent] ++
      [selfGivesUp, comes, fallsSilent].map .event)).client.registry.handlers
        ⟨fakeEvent, .empty⟩).map PeerRef.id = [⟨"Abc.P.0"⟩]) := by
  have hpeers : ∀ e ∈ [comes, fallsSilent], ∀ e' ∈ [selfGivesUp], e.peer ≠ e'.peer := by decide
  refine ⟨answersLike_interleaved ?_ hpeers (.first _ (.second _ (.first _ .nil)))
    (.second _ (.first _ (.first _ .nil))), by decide, by decide⟩
  intro before self ss now seed after hacts
  cases before with
  | nil =>
    cases (List.cons.inj hacts).1
    exact Nat.zero_lt_one
  | cons act before =>
    -- the other act is no call
    have hrest := (List.cons.inj hacts).2
    cases before with
    | nil => cases (List.cons.inj hrest).1
    | cons act' before => simp at hrest

end Situation

end Directory

end ServiceBus
