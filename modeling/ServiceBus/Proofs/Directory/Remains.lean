import ServiceBus.Proofs.Directory.Answers
import ServiceBus.Proofs.Directory.Lateness

/-!
# Registries that differ in what was given up

A subscription that was given up leaves a disabled status with the time at which it was given up.
Nobody sees it, and it counts only when the subscription is announced again.  So take two registries
that are the same but for such remains of some lost subscriptions (`Registry.Akin`).  They answer
alike, and they go on to do so under any events, provided that nothing to come that adds a lost
subscription is older than the remains on either side; `Lapsed` says so of one status.

Each operation on interests is looked at once, for both sides together: it leaves interests that
are again the same but for the remains, and its changes come to the same for every kind of
subscription.
-/

set_option autoImplicit false

namespace ServiceBus.Directory

open Status (announced)

/-- The event says that a peer has subscribed. -/
def Event.Adds (id : PeerId) (s : Subscription) : Event → Prop
  | .subscriptionsAdded b => b.peer = id ∧ s ∈ b.subscriptions
  | .subscriptionsForTypesUpdated b => b.peer = id ∧ ∃ i ∈ b.interests, s ∈ i.subscriptions
  | _ => False

/-- The event says that a peer has given up a subscription. -/
def Event.Removes (id : PeerId) (s : Subscription) : Event → Prop
  | .subscriptionsRemoved b => b.peer = id ∧ s ∈ b.subscriptions
  | _ => False

/-- Among the events, none that adds the subscription is older than one before it that removes the
subscription. -/
def Event.InTurn (id : PeerId) (s : Subscription) (es : List Event) : Prop :=
  es.Pairwise fun e e' ↦ e.Removes id s → e'.Adds id s →
    Instant.isStale e.timestamp? e'.timestamp? = false

/-! ## One peer -/

namespace Interests

/-- Both sides know the same of every subscription, or it has lapsed on both sides. -/
def SameBut (lapsed : Subscription → Option Status → Prop) (i i' : Interests) : Prop :=
  ∀ s, i.statuses.find? s = i'.statuses.find? s ∨
    lapsed s (i.statuses.find? s) ∧ lapsed s (i'.statuses.find? s)

/-- Two operations leave the same but for what has lapsed, and give changes that come to the
same. -/
structure GoLike (lapsed : Subscription → Option Status → Prop)
    (after after' : Interests × List Change) : Prop where
  /-- What is left. -/
  left : SameBut lapsed after.1 after'.1
  /-- What the changes come to. -/
  changes : ∀ kind, lastOf after.2 kind = lastOf after'.2 kind

variable {lapsed : Subscription → Option Status → Prop} {i i' : Interests}
  {timestamp : Option Instant}

theorem SameBut.of_eq (h : ∀ s, i.statuses.find? s = i'.statuses.find? s) : SameBut lapsed i i' :=
  fun s ↦ Or.inl (h s)

theorem SameBut.mono {lapsed' : Subscription → Option Status → Prop} (h : SameBut lapsed i i')
    (himp : ∀ s known, lapsed s known → lapsed' s known) : SameBut lapsed' i i' :=
  fun s ↦ (h s).imp_right (And.imp (himp s _) (himp s _))

/-- One operation comes after another. -/
theorem GoLike.trans {before before' after after' : Interests × List Change}
    (h : GoLike lapsed before before') (h' : GoLike lapsed after after') :
    GoLike lapsed (after.1, before.2 ++ after.2) (after'.1, before'.2 ++ after'.2) := by
  refine ⟨h'.left, fun kind ↦ ?_⟩
  rw [lastOf_append, lastOf_append, h.changes, h'.changes]

section

variable (hlapsed : ∀ s known, lapsed s known → known.any Status.enabled = false)

include hlapsed

/-- What has lapsed is not enabled. -/
theorem SameBut.isEnabled_eq (h : SameBut lapsed i i') (s : Subscription) :
    i.isEnabled s = i'.isEnabled s := by
  obtain hsame | ⟨hl, hl'⟩ := h s
  · rw [isEnabled, isEnabled, hsame]
  · exact (hlapsed s _ hl).trans (hlapsed s _ hl').symm

theorem SameBut.find?_eq (h : SameBut lapsed i i') {s : Subscription}
    (henabled : i.isEnabled s = true) : i.statuses.find? s = i'.statuses.find? s := by
  obtain hsame | ⟨hl, -⟩ := h s
  · exact hsame
  · have hnot : i.isEnabled s = false := hlapsed s _ hl
    rw [henabled] at hnot
    cases hnot

/-- To subscribe, when no status that has lapsed is newer. -/
theorem SameBut.setAll_true (h : SameBut lapsed i i') {ss : List Subscription}
    (hss : ∀ s ∈ ss, ∀ known, lapsed s known →
      known.any (fun status ↦ Instant.isStale status.timestamp timestamp) = false) :
    GoLike lapsed (i.setAll true timestamp ss) (i'.setAll true timestamp ss) := by
  have hnewer : ∀ s ∈ ss, i.isNewer s timestamp = i'.isNewer s timestamp := by
    intro s hs
    obtain hsame | ⟨hl, hl'⟩ := h s
    · rw [isNewer, isNewer, hsame]
    · exact (hss s hs _ hl).trans (hss s hs _ hl').symm
  refine ⟨fun s ↦ ?_, fun kind ↦ Option.ext fun enabled ↦ ?_⟩
  · rw [find?_setAll, find?_setAll]
    split
    · next hs =>
      obtain hsame | ⟨hl, hl'⟩ := h s
      · exact Or.inl (by rw [hsame])
      · -- on both sides the subscription is enabled as of now
        have htaken : ∀ known, lapsed s known →
            announced known true timestamp = ⟨true, timestamp⟩ := by
          intro known hknown
          cases known with
          | none => rfl
          | some status =>
            have hdisabled : status.enabled = false := hlapsed s _ hknown
            exact Status.announced_of_fresh (hss s hs _ hknown) (by simp [hdisabled])
        exact Or.inl (by rw [htaken _ hl, htaken _ hl'])
    · exact h s
  · rw [lastOf_setAll_eq_some_iff, lastOf_setAll_eq_some_iff]
    refine and_congr_right fun _ ↦ exists_congr fun s ↦ and_congr_right fun _ ↦
      and_congr_right fun hs ↦ ?_
    rw [h.isEnabled_eq hlapsed, hnewer s hs]

/-- To give up the same subscriptions: what has lapsed still counts as lapsed. -/
theorem SameBut.setAll_false (h : SameBut lapsed i i') {ss ss' : List Subscription}
    (hsame : ∀ s, s ∈ ss ↔ s ∈ ss')
    (hss : ∀ s ∈ ss, i.isEnabled s = true ∨
      ∀ known, lapsed s known → lapsed s (some (announced known false timestamp))) :
    GoLike lapsed (i.setAll false timestamp ss) (i'.setAll false timestamp ss') := by
  refine ⟨fun s ↦ ?_, fun kind ↦ Option.ext fun enabled ↦ ?_⟩
  · rw [find?_setAll, find?_setAll]
    by_cases hs : s ∈ ss
    · rw [if_pos hs, if_pos ((hsame s).mp hs)]
      obtain henabled | hstill := hss s hs
      · exact Or.inl (by rw [h.find?_eq hlapsed henabled])
      · refine (h s).imp (fun hsame ↦ by rw [hsame]) fun ⟨hl, hl'⟩ ↦ ?_
        exact ⟨hstill _ hl, hstill _ hl'⟩
    · rw [if_neg hs, if_neg (mt (hsame s).mpr hs)]
      exact h s
  · rw [lastOf_setAll_eq_some_iff, lastOf_setAll_eq_some_iff]
    refine and_congr_right fun _ ↦ exists_congr fun s ↦ and_congr_right fun _ ↦ ?_
    rw [hsame s]
    refine and_congr_right fun _ ↦ ?_
    rw [h.isEnabled_eq hlapsed]
    refine and_congr_right fun henabled ↦ ?_
    -- what is enabled has not lapsed
    rw [isNewer, isNewer, h.find?_eq hlapsed]
    rw [h.isEnabled_eq hlapsed]
    exact Bool.not_eq_false _ ▸ henabled

/-- To replace the subscriptions to one type. -/
theorem SameBut.replaceType (h : SameBut lapsed i i') {interest : TypeInterest}
    (hss : ∀ s ∈ interest.subscriptions, ∀ known, lapsed s known →
      known.any (fun status ↦ Instant.isStale status.timestamp timestamp) = false) :
    GoLike lapsed (i.replaceType interest timestamp) (i'.replaceType interest timestamp) := by
  have hbut : ∀ s, s ∈ i.enabledBut interest.type interest.subscriptions ↔
      s ∈ i'.enabledBut interest.type interest.subscriptions := fun s ↦ by
    rw [mem_enabledBut, mem_enabledBut, h.isEnabled_eq hlapsed]
  have hgone : GoLike lapsed
      (i.setAll false timestamp (i.enabledBut interest.type interest.subscriptions))
      (i'.setAll false timestamp (i'.enabledBut interest.type interest.subscriptions)) :=
    h.setAll_false hlapsed hbut fun s hs ↦ Or.inl (mem_enabledBut.mp hs).1
  exact hgone.trans (hgone.left.setAll_true hlapsed hss)

theorem SameBut.replaceTypes (h : SameBut lapsed i i') {interests : List TypeInterest}
    (hss : ∀ interest ∈ interests, ∀ s ∈ interest.subscriptions, ∀ known, lapsed s known →
      known.any (fun status ↦ Instant.isStale status.timestamp timestamp) = false) :
    GoLike lapsed (i.replaceTypes timestamp interests) (i'.replaceTypes timestamp interests) := by
  induction interests generalizing i i' with
  | nil => exact ⟨h, fun _ ↦ rfl⟩
  | cons interest rest ih =>
    have hfirst := h.replaceType hlapsed (hss interest List.mem_cons_self)
    exact hfirst.trans
      (ih hfirst.left fun interest' hi ↦ hss interest' (List.mem_cons_of_mem _ hi))

/-- To replace the whole set: what has lapsed is forgotten on both sides. -/
theorem SameBut.replace (h : SameBut lapsed i i') (ss : List Subscription)
    (timestamp : Option Instant) :
    GoLike lapsed (i.replace ss timestamp) (i'.replace ss timestamp) := by
  have hkept : ∀ s, i.withoutRemains.statuses.find? s = i'.withoutRemains.statuses.find? s := by
    intro s
    rw [find?_withoutRemains, find?_withoutRemains, h.isEnabled_eq hlapsed]
    split
    · next henabled => exact h.find?_eq hlapsed ((h.isEnabled_eq hlapsed s).trans henabled)
    · rfl
  have hgone : ∀ s, s ∈ i.gone ss ↔ s ∈ i'.gone ss := fun s ↦ by
    rw [mem_gone, mem_gone, h.isEnabled_eq hlapsed]
  have hfirst : GoLike (fun _ _ ↦ False) (i.withoutRemains.setAll false timestamp (i.gone ss))
      (i'.withoutRemains.setAll false timestamp (i'.gone ss)) :=
    (SameBut.of_eq hkept).setAll_false (fun _ _ hfalse ↦ hfalse.elim) hgone
      fun _ _ ↦ Or.inr fun _ hfalse ↦ hfalse.elim
  have hnow : ∀ s,
      (i.withoutRemains.setAll false timestamp (i.gone ss)).1.statuses.find? s =
        (i'.withoutRemains.setAll false timestamp (i'.gone ss)).1.statuses.find? s :=
    fun s ↦ (hfirst.left s).resolve_right fun hfalse ↦ hfalse.1
  refine ⟨fun s ↦ Or.inl ?_, fun kind ↦ ?_⟩
  · rw [replace_fst, replace_fst, find?_enableNew, find?_enableNew, hnow]
  · rw [replace_snd, replace_snd, lastOf_append, lastOf_append, hfirst.changes]
    congr 1
    refine Option.ext fun enabled ↦ ?_
    rw [lastOf_enableNew_eq_some_iff, lastOf_enableNew_eq_some_iff]
    simp only [hnow]

theorem SameBut.withdrawal (h : SameBut lapsed i i') (kind : Subscription → Bool) :
    lastOf i.withdrawal kind = lastOf i'.withdrawal kind := by
  refine Option.ext fun enabled ↦ ?_
  rw [lastOf_withdrawal_eq_some_iff, lastOf_withdrawal_eq_some_iff]
  simp only [h.isEnabled_eq hlapsed]

end

end Interests

/-! ## All peers -/

/-- A lost subscription has lapsed: it is disabled, and nothing to come that adds it is older than
the time at which it was given up. -/
def Lapsed (lost : PeerId → Subscription → Prop) (es : List Event) (id : PeerId)
    (s : Subscription) (known : Option Status) : Prop :=
  lost id s ∧ ∀ status ∈ known, status.enabled = false ∧
    ∀ e ∈ es, e.Adds id s → Instant.isStale status.timestamp e.timestamp? = false

namespace Lapsed

variable {lost : PeerId → Subscription → Prop} {e : Event} {es : List Event} {id : PeerId}
  {s : Subscription} {known : Option Status}

theorem any_enabled (h : Lapsed lost es id s known) : known.any Status.enabled = false := by
  cases known with
  | none => rfl
  | some status => exact (h.2 status rfl).1

theorem tail (h : Lapsed lost (e :: es) id s known) : Lapsed lost es id s known :=
  ⟨h.1, fun status hstatus ↦ ⟨(h.2 status hstatus).1, fun e' he' ↦
    (h.2 status hstatus).2 e' (List.mem_cons_of_mem _ he')⟩⟩

/-- The next event is not older. -/
theorem any_isStale (h : Lapsed lost (e :: es) id s known) (hadds : e.Adds id s) :
    known.any (fun status ↦ Instant.isStale status.timestamp e.timestamp?) = false := by
  cases known with
  | none => rfl
  | some status => exact (h.2 status rfl).2 e List.mem_cons_self hadds

/-- To give a lapsed subscription up once more changes nothing, or leaves the time of that. -/
theorem announced (h : Lapsed lost es id s known) {timestamp : Option Instant}
    (hlater : ∀ e ∈ es, e.Adds id s → Instant.isStale timestamp e.timestamp? = false) :
    Lapsed lost es id s (some (announced known false timestamp)) := by
  refine ⟨h.1, fun status hstatus ↦ ?_⟩
  obtain rfl := Option.some.inj hstatus
  cases known with
  | none => exact ⟨rfl, hlater⟩
  | some status =>
    obtain ⟨hdisabled, hfresh⟩ := h.2 status rfl
    rw [Status.announced_of_same hdisabled]
    exact ⟨hdisabled, hfresh⟩

end Lapsed

namespace Registry

/-- Two registries are the same but for subscriptions that have lapsed in both. -/
structure Akin (lapsed : PeerId → Subscription → Option Status → Prop) (r r' : Registry) :
    Prop where
  /-- All instances are in the same state. -/
  roster : r'.roster = r.roster
  /-- The same peers are known, and the same is known of them but for what has lapsed. -/
  members : ∀ id, (r.members.find? id = none ∧ r'.members.find? id = none) ∨
    ∃ m i, r.members.find? id = some m ∧ r'.members.find? id = some { m with interests := i } ∧
      m.peer.id = id ∧ Interests.SameBut (lapsed id) m.interests i
  /-- The one index is tidy. -/
  tidy : r.index.Tidy
  /-- The other index is tidy. -/
  tidy' : r'.index.Tidy
  /-- The same peers are filed under a subscription. -/
  holdsId_iff : ∀ s id, r.index.HoldsId s id ↔ r'.index.HoldsId s id

namespace Akin

variable {lapsed : PeerId → Subscription → Option Status → Prop} {r r' : Registry}

theorem mono {lapsed' : PeerId → Subscription → Option Status → Prop} (h : Akin lapsed r r')
    (himp : ∀ id s known, lapsed id s known → lapsed' id s known) : Akin lapsed' r r' :=
  { h with
    members := fun id ↦ (h.members id).imp_right
      fun ⟨m, i, hm, hm', hown, hsame⟩ ↦ ⟨m, i, hm, hm', hown, hsame.mono (himp id)⟩ }

theorem withRoster (h : Akin lapsed r r') (roster : Roster) :
    Akin lapsed { r with roster } { r' with roster } :=
  ⟨rfl, h.members, h.tidy, h.tidy', h.holdsId_iff⟩

/-- A member is put anew on both sides. -/
theorem put (h : Akin lapsed r r') (m : Member) {after after' : Interests × List Change}
    (hlike : Interests.GoLike (lapsed m.peer.id) after after') :
    Akin lapsed (r.put m after) (r'.put m after') where
  roster := h.roster
  members id := by
    rw [find?_put, find?_put]
    split
    · next hid =>
      subst hid
      exact Or.inr ⟨{ m with interests := after.1 }, after'.1, rfl, rfl, rfl, hlike.left⟩
    · exact h.members id
  tidy := h.tidy.followAll m.peer after.2
  tidy' := h.tidy'.followAll m.peer after'.2
  holdsId_iff s id := by
    have hindex := Index.holdsId_followAll h.tidy m.peer after.2 s id
    have hindex' := Index.holdsId_followAll h.tidy' m.peer after'.2 s id
    rw [← hlike.changes] at hindex'
    refine hindex.trans (Iff.trans ?_ hindex'.symm)
    rw [h.holdsId_iff]

/-- A peer that is known on one side is known on the other. -/
theorem amend (h : Akin lapsed r r') (id : PeerId) (type : MessageType)
    {change change' : Member → Registry × List Notice}
    (hchange : ∀ m i, r.members.find? id = some m → m.peer.id = id →
      Interests.SameBut (lapsed id) m.interests i →
      Akin lapsed (change m).1 (change' { m with interests := i }).1) :
    Akin lapsed (r.amend id type change).1 (r'.amend id type change').1 := by
  rw [Registry.amend, Registry.amend]
  obtain ⟨hnone, hnone'⟩ | ⟨m, i, hm, hm', hown, hsame⟩ := h.members id
  · rw [hnone, hnone']
    exact h
  · rw [hm, hm']
    exact hchange m i hm hown hsame

theorem amendInterests (h : Akin lapsed r r') (id : PeerId) (type : MessageType)
    {change : Interests → Interests × List Change}
    (hchange : ∀ i i', Interests.SameBut (lapsed id) i i' →
      Interests.GoLike (lapsed id) (change i) (change i')) :
    Akin lapsed (r.amendInterests id type change).1 (r'.amendInterests id type change).1 := by
  refine h.amend id type fun m i _ hown hsame ↦ ?_
  subst hown
  exact h.put m (hchange _ _ hsame)

theorem setResponding (h : Akin lapsed r r') (id : PeerId) (type : MessageType)
    (responding : Bool) :
    Akin lapsed (r.setResponding id type responding).1 (r'.setResponding id type responding).1 := by
  refine h.amend id type fun m i _ _ _ ↦ ?_
  rw [h.roster]
  exact h.withRoster _

theorem stop (h : Akin lapsed r r') (b : Stopped) :
    Akin lapsed (r.apply (.stopped b)).1 (r'.apply (.stopped b)).1 := by
  refine h.amend b.peer _ fun m i _ hown hsame ↦ ?_
  dsimp only
  split
  · exact h
  · refine ⟨by rw [h.roster], fun id ↦ ?_, h.tidy, h.tidy', h.holdsId_iff⟩
    dsimp only
    rw [Table.find?_insert, Table.find?_insert]
    split
    · next hid =>
      subst hid
      exact Or.inr ⟨_, i, rfl, rfl, hown, hsame⟩
    · exact h.members id

section

variable (hlapsed : ∀ id s known, lapsed id s known → known.any Status.enabled = false)

include hlapsed

theorem learn (h : Akin lapsed r r') (d : Descriptor Peer) (refresh : Bool) :
    Akin lapsed (r.learn d refresh).1 (r'.learn d refresh).1 := by
  obtain ⟨hnone, hnone'⟩ | ⟨m, i, hm, hm', hown, hsame⟩ := h.members d.peer.id
  · rw [learn_of_unknown hnone, learn_of_unknown hnone', h.roster]
    have hempty : Interests.SameBut (lapsed d.peer.id) .empty .empty := .of_eq fun _ ↦ rfl
    exact (h.withRoster _).put _ (hempty.replace (hlapsed _) _ _)
  · cases hstale : Instant.isStale m.timestamp d.timestamp with
    | true =>
      rw [learn_of_stale hm hstale, learn_of_stale hm' hstale]
      exact h
    | false =>
      rw [learn_of_known hm hstale, learn_of_known hm' hstale, h.roster]
      rw [← hown] at hsame
      exact (h.withRoster _).put (m.refreshed d refresh) (hsame.replace (hlapsed _) _ _)

theorem decommission (h : Akin lapsed r r') (b : Decommissioned) :
    Akin lapsed (r.apply (.decommissioned b)).1 (r'.apply (.decommissioned b)).1 := by
  refine h.amend b.peer _ fun m i _ _ hsame ↦ ?_
  refine ⟨h.roster, fun id ↦ ?_, h.tidy.followAll m.peer _, h.tidy'.followAll m.peer _,
    fun s id ↦ ?_⟩
  · dsimp only
    rw [Table.find?_erase, Table.find?_erase]
    split
    · exact Or.inl ⟨rfl, rfl⟩
    · exact h.members id
  · have hindex := Index.holdsId_followAll h.tidy m.peer m.interests.withdrawal s id
    have hindex' := Index.holdsId_followAll h.tidy' m.peer i.withdrawal s id
    rw [← hsame.withdrawal (hlapsed _)] at hindex'
    refine hindex.trans (Iff.trans ?_ hindex'.symm)
    rw [h.holdsId_iff]

/-- **What has lapsed is not seen.** -/
theorem answersLike (h : Akin lapsed r r') : r.AnswersLike r' := by
  refine ⟨fun id ↦ ?_, fun topic id ↦ ?_⟩
  · obtain ⟨hnone, hnone'⟩ | ⟨m, i, hm, hm', -, hsame⟩ := h.members id
    · rw [told?_of_unknown hnone, told?_of_unknown hnone']
    · have henabled : m.interests.enabled = i.enabled :=
        Interests.enabled_congr (hsame.isEnabled_eq (hlapsed id))
      rw [told?_of_known hm, told?_of_known hm', h.roster, Member.descriptor, Member.descriptor,
        henabled]
  · rw [handlers, handlers, Index.mem_ids_handlers h.tidy, Index.mem_ids_handlers h.tidy']
    simp only [h.holdsId_iff]

end

/-! ## Events to come -/

variable {lost : PeerId → Subscription → Prop} {e : Event} {es : List Event}

theorem apply (h : Akin (Lapsed lost (e :: es)) r r')
    (hturn : ∀ id s, lost id s → ∀ e' ∈ es, e.Removes id s → e'.Adds id s →
      Instant.isStale e.timestamp? e'.timestamp? = false) :
    Akin (Lapsed lost es) (r.apply e).1 (r'.apply e).1 := by
  have htail : Akin (Lapsed lost es) r r' := h.mono fun _ _ _ ↦ Lapsed.tail
  cases e with
  | started b => exact htail.learn (fun _ _ _ ↦ Lapsed.any_enabled) b.descriptor true
  | subscriptionsUpdated b => exact htail.learn (fun _ _ _ ↦ Lapsed.any_enabled) b.descriptor false
  | stopped b => exact htail.stop b
  | decommissioned b => exact htail.decommission (fun _ _ _ ↦ Lapsed.any_enabled) b
  | subscriptionsAdded b =>
    have hadded := h.amendInterests b.peer (Event.subscriptionsAdded b).type
      fun i i' hsame ↦ hsame.setAll_true (fun _ _ ↦ Lapsed.any_enabled)
        fun s hs known hlapsed ↦ hlapsed.any_isStale ⟨rfl, hs⟩
    exact hadded.mono fun _ _ _ ↦ Lapsed.tail
  | subscriptionsRemoved b =>
    exact htail.amendInterests b.peer _ fun i i' hsame ↦
      hsame.setAll_false (fun _ _ ↦ Lapsed.any_enabled) (fun _ ↦ Iff.rfl) fun s hs ↦
        Or.inr fun known hlapsed ↦ hlapsed.announced fun e' he' hadds ↦
          hturn b.peer s hlapsed.1 e' he' ⟨rfl, hs⟩ hadds
  | subscriptionsForTypesUpdated b =>
    have hreplaced := h.amendInterests b.peer (Event.subscriptionsForTypesUpdated b).type
      fun i i' hsame ↦ hsame.replaceTypes (fun _ _ ↦ Lapsed.any_enabled)
        fun interest hi s hs known hlapsed ↦ hlapsed.any_isStale ⟨rfl, interest, hi, hs⟩
    exact hreplaced.mono fun _ _ _ ↦ Lapsed.tail
  | notResponding b => exact htail.setResponding b.peer _ false
  | responding b => exact htail.setResponding b.peer _ true

theorem applyAll (h : Akin (Lapsed lost es) r r')
    (hturn : ∀ id s, lost id s → Event.InTurn id s es) :
    Akin (Lapsed lost []) (r.applyAll es).1 (r'.applyAll es).1 := by
  induction es generalizing r r' with
  | nil => exact h
  | cons e es ih =>
    have hcons := fun id s hlost ↦ List.pairwise_cons.mp (hturn id s hlost)
    have hnext := h.apply fun id s hlost ↦ (hcons id s hlost).1
    exact ih hnext fun id s hlost ↦ (hcons id s hlost).2

end Akin

end Registry

end ServiceBus.Directory
