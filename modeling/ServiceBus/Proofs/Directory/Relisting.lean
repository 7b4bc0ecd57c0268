import Mathlib.Data.List.Dedup
import ServiceBus.Proofs.Directory.Answers
import ServiceBus.Proofs.Directory.TypeReplacements

/-!
# What a new list leaves of each status

A peer can give a new list of all its subscriptions, or of those to some types.  Both are told here
status by status: `Interests.statuses_replace` is the effect of a list of all subscriptions, and
`Interests.statuses_replaceTypes` that of lists for types, one after the other.

What a list does to one subscription hangs on three things, whether it is listed, what is known of
it, and whether that is as of a later time (`Instant.IsAfter`).  So it does not matter in which order
the subscriptions are gone through.  `Interests.RelistsTypes` leaves that order free, and whoever
goes through them in another order ends with the same statuses, and with an index that has the same
peers handle each topic.
-/

set_option autoImplicit false

namespace ServiceBus

/-- Both times are known, and the first is later. -/
def Instant.IsAfter (known timestamp : Option Instant) : Prop :=
  ∃ t u, known = some t ∧ timestamp = some u ∧ u < t

theorem Instant.isStale_iff {known timestamp : Option Instant} :
    isStale known timestamp = true ↔ IsAfter known timestamp := by
  cases known with
  | none => simp [isStale, IsAfter]
  | some t => cases timestamp <;> simp [isStale, IsAfter]

theorem Instant.isStale_eq_false_iff {known timestamp : Option Instant} :
    isStale known timestamp = false ↔ ¬ IsAfter known timestamp := by
  rw [← isStale_iff, Bool.not_eq_true]

namespace Directory.Interests

open Status (announced)

/-! ## All subscriptions -/

theorem isEnabled_of_find? {i : Interests} {s : Subscription} {status : Status}
    (h : i.statuses.find? s = some status) : i.isEnabled s = status.enabled := by
  rw [isEnabled, h]
  rfl

theorem isNewer_iff {i : Interests} {s : Subscription} {timestamp : Option Instant} :
    i.isNewer s timestamp = true ↔
      ∃ known, i.statuses.find? s = some known ∧ Instant.IsAfter known.timestamp timestamp := by
  simp only [isNewer, Option.any_eq_true, Instant.isStale_iff]

/-- What was enabled and is not listed keeps its status if that is as of a later time. -/
theorem find?_replace_of_newer {i : Interests} {ss : List Subscription}
    {timestamp : Option Instant} {s : Subscription} {known : Status} (hs : s ∉ ss)
    (henabled : i.isEnabled s = true) (hfind : i.statuses.find? s = some known)
    (hlater : Instant.IsAfter known.timestamp timestamp) :
    (i.replace ss timestamp).1.statuses.find? s = some known := by
  rw [find?_replace, if_pos henabled, if_neg hs, hfind,
    Status.announced_of_stale (Instant.isStale_iff.mpr hlater)]

/-- **What a list of all subscriptions leaves.**

* Enabled is what is listed, and what was enabled as of a later time.
* What was enabled keeps its status if it is listed, and also if it is not but is as of a later
  time.
* What was not enabled and is listed is as of the time of the list, whatever was known of it.
* What was enabled and is not any more was disabled as of the time of the list, and of nothing else
  is it known that it is disabled. -/
theorem statuses_replace (i : Interests) (ss : List Subscription) (timestamp : Option Instant) :
    let i' := (i.replace ss timestamp).1
    (∀ s, s ∈ i'.enabled ↔ s ∈ ss ∨ (s ∈ i.enabled ∧ s ∉ ss ∧
      ∃ known, i.statuses.find? s = some known ∧ Instant.IsAfter known.timestamp timestamp)) ∧
    (∀ s, s ∈ i.enabled → s ∈ ss → i'.statuses.find? s = i.statuses.find? s) ∧
    (∀ s known, s ∈ i.enabled → s ∉ ss → i.statuses.find? s = some known →
      Instant.IsAfter known.timestamp timestamp → i'.statuses.find? s = some known) ∧
    (∀ s, s ∉ i.enabled → s ∈ ss → i'.statuses.find? s = some ⟨true, timestamp⟩) ∧
    (∀ s, s ∈ i.enabled → s ∉ i'.enabled → i'.statuses.find? s = some ⟨false, timestamp⟩) ∧
    ∀ s time, i'.statuses.find? s = some ⟨false, time⟩ →
      s ∈ i.enabled ∧ s ∉ ss ∧ time = timestamp := by
  intro i'
  simp only [mem_enabled]
  refine ⟨fun s ↦ ?_, fun s henabled hs ↦ ?_, fun s known henabled hs hfind hlater ↦ ?_,
    fun s hdisabled hs ↦ ?_, fun s henabled hdisabled ↦ ?_, fun s time hfind ↦ ?_⟩
  · rw [isEnabled_replace, ← isNewer_iff]
    by_cases hs : s ∈ ss <;> simp [hs]
  · rw [find?_replace, if_pos henabled, if_pos hs]
  · exact find?_replace_of_newer hs henabled hfind hlater
  · rw [find?_replace, if_neg hdisabled, if_pos hs]
  · rw [find?_replace_of_disabled (Bool.not_eq_true _ ▸ hdisabled), if_pos henabled]
  · have hdisabled : i'.isEnabled s = false := isEnabled_of_find? hfind
    have hnot : s ∉ ss := fun hs ↦ by
      rw [isEnabled_replace] at hdisabled
      simp [hs] at hdisabled
    rw [find?_replace_of_disabled hdisabled] at hfind
    split at hfind
    · next henabled =>
      cases hfind
      exact ⟨henabled, hnot, rfl⟩
    · cases hfind

/-! ## The subscriptions to one type -/

/-- What a list of the subscriptions to one type does to each status. -/
structure Relisted (interest : TypeInterest) (timestamp : Option Instant) (i i' : Interests) :
    Prop where
  /-- What is listed and enabled stays as it is. -/
  stays : ∀ s time, s ∈ interest.subscriptions → i.statuses.find? s = some ⟨true, time⟩ →
    i'.statuses.find? s = some ⟨true, time⟩
  /-- What is listed and disabled as of a later time stays as it is. -/
  refused : ∀ s time, s ∈ interest.subscriptions → i.statuses.find? s = some ⟨false, time⟩ →
    Instant.IsAfter time timestamp → i'.statuses.find? s = some ⟨false, time⟩
  /-- What is listed and disabled otherwise is enabled. -/
  returns : ∀ s time, s ∈ interest.subscriptions → i.statuses.find? s = some ⟨false, time⟩ →
    ¬ Instant.IsAfter time timestamp → i'.statuses.find? s = some ⟨true, timestamp⟩
  /-- What is listed and was never heard of is enabled. -/
  comes : ∀ s, s ∈ interest.subscriptions → i.statuses.find? s = none →
    i'.statuses.find? s = some ⟨true, timestamp⟩
  /-- What is enabled as of a later time and is not listed stays as it is. -/
  kept : ∀ s time, s.type = interest.type → s ∉ interest.subscriptions →
    i.statuses.find? s = some ⟨true, time⟩ → Instant.IsAfter time timestamp →
    i'.statuses.find? s = some ⟨true, time⟩
  /-- What is enabled otherwise and is not listed is disabled. -/
  goes : ∀ s time, s.type = interest.type → s ∉ interest.subscriptions →
    i.statuses.find? s = some ⟨true, time⟩ → ¬ Instant.IsAfter time timestamp →
    i'.statuses.find? s = some ⟨false, timestamp⟩
  /-- All else stays as it is. -/
  others : ∀ s, s.type ≠ interest.type ∨ (s ∉ interest.subscriptions ∧ i.isEnabled s = false) →
    i'.statuses.find? s = i.statuses.find? s

/-- What is listed hears that it is enabled; what is enabled and not listed, that it is disabled. -/
theorem find?_replaceType (i : Interests) (interest : TypeInterest) (timestamp : Option Instant)
    (s : Subscription) :
    (i.replaceType interest timestamp).1.statuses.find? s =
      if s ∈ interest.subscriptions then some (announced (i.statuses.find? s) true timestamp)
      else if s.type = interest.type ∧ i.isEnabled s = true then
        some (announced (i.statuses.find? s) false timestamp)
      else i.statuses.find? s := by
  have heq : (i.replaceType interest timestamp).1 =
      ((i.setAll false timestamp (i.enabledBut interest.type interest.subscriptions)).1.setAll true
        timestamp interest.subscriptions).1 := rfl
  rw [heq, find?_setAll, find?_setAll]
  by_cases hs : s ∈ interest.subscriptions
  · simp [hs, mem_enabledBut]
  · simp [hs, mem_enabledBut, and_comm]

theorem relisted_replaceType (i : Interests) (interest : TypeInterest)
    (timestamp : Option Instant) :
    Relisted interest timestamp i (i.replaceType interest timestamp).1 where
  stays s time hs hfind := by
    rw [find?_replaceType, if_pos hs, hfind, Status.announced_of_same rfl]
  refused s time hs hfind hlater := by
    rw [find?_replaceType, if_pos hs, hfind,
      Status.announced_of_stale (Instant.isStale_iff.mpr hlater)]
  returns s time hs hfind hlater := by
    rw [find?_replaceType, if_pos hs, hfind,
      Status.announced_of_fresh (Instant.isStale_eq_false_iff.mpr hlater) Bool.false_ne_true]
  comes s hs hfind := by
    rw [find?_replaceType, if_pos hs, hfind, Status.announced_none]
  kept s time htype hs hfind hlater := by
    rw [find?_replaceType, if_neg hs, if_pos ⟨htype, isEnabled_of_find? hfind⟩, hfind,
      Status.announced_of_stale (Instant.isStale_iff.mpr hlater)]
  goes s time htype hs hfind hlater := by
    rw [find?_replaceType, if_neg hs, if_pos ⟨htype, isEnabled_of_find? hfind⟩, hfind,
      Status.announced_of_fresh (Instant.isStale_eq_false_iff.mpr hlater) (by simp)]
  others s h := by
    have hs : s ∉ interest.subscriptions := fun hs ↦
      h.elim (fun htype ↦ htype (TypeInterest.type_of_mem hs)) fun hnot ↦ hnot.1 hs
    rw [find?_replaceType, if_neg hs, if_neg]
    rintro ⟨htype, henabled⟩
    exact h.elim (fun hother ↦ hother htype) fun hnot ↦ by simp [hnot.2] at henabled

/-! ## In any order -/

/-- What may come of a list of the subscriptions to one type: those that go are gone through in some
order, and then those that come, each once. -/
inductive RelistsType (timestamp : Option Instant) (i : Interests) (interest : TypeInterest) :
    Interests × List Change → Prop
  | mk {gone come : List Subscription}
      (hgone : gone.Perm (i.enabledBut interest.type interest.subscriptions))
      (honce : come.Nodup) (hcome : ∀ s, s ∈ come ↔ s ∈ interest.subscriptions) :
      RelistsType timestamp i interest
        (((i.setAll false timestamp gone).1.setAll true timestamp come).1,
          (i.setAll false timestamp gone).2 ++
            ((i.setAll false timestamp gone).1.setAll true timestamp come).2)

/-- What may come of lists for several types, one after the other. -/
inductive RelistsTypes (timestamp : Option Instant) :
    Interests → List TypeInterest → Interests × List Change → Prop
  | nil (i : Interests) : RelistsTypes timestamp i [] (i, [])
  | cons {i i' : Interests} {interest : TypeInterest} {rest : List TypeInterest}
      {changes : List Change} {outcome : Interests × List Change}
      (hfirst : RelistsType timestamp i interest (i', changes))
      (hrest : RelistsTypes timestamp i' rest outcome) :
      RelistsTypes timestamp i (interest :: rest) (outcome.1, changes ++ outcome.2)

/-- The same is known of every subscription. -/
def Agree (i j : Interests) : Prop := ∀ s, i.statuses.find? s = j.statuses.find? s

variable {timestamp : Option Instant} {i j : Interests}

theorem Agree.setAll (h : Agree i j) (enabled : Bool) {ss ss' : List Subscription}
    (hss : ∀ s, s ∈ ss ↔ s ∈ ss') :
    Agree (i.setAll enabled timestamp ss).1 (j.setAll enabled timestamp ss').1 := fun s ↦ by
  rw [find?_setAll, find?_setAll, h s]
  simp only [hss s]

theorem Agree.lastOf_setAll (h : Agree i j) (enabled : Bool) {ss ss' : List Subscription}
    (hss : ∀ s, s ∈ ss ↔ s ∈ ss') (kind : Subscription → Bool) :
    lastOf (i.setAll enabled timestamp ss).2 kind =
      lastOf (j.setAll enabled timestamp ss').2 kind := by
  refine Option.ext fun enabled' ↦ ?_
  rw [lastOf_setAll_eq_some_iff, lastOf_setAll_eq_some_iff]
  simp only [isEnabled, isNewer, h _, hss]

/-- In whatever order one list is gone through, the same is known afterwards, and the changes say the
same in the end. -/
theorem Agree.relistsType (h : Agree i j) {interest : TypeInterest}
    {outcome : Interests × List Change} (ho : RelistsType timestamp i interest outcome) :
    Agree outcome.1 (j.replaceType interest timestamp).1 ∧
      ∀ kind, lastOf outcome.2 kind = lastOf (j.replaceType interest timestamp).2 kind := by
  obtain ⟨hgone, -, hcome⟩ := ho
  have hbut : ∀ s, s ∈ _ ↔ s ∈ j.enabledBut interest.type interest.subscriptions := fun s ↦ by
    rw [hgone.mem_iff, mem_enabledBut, mem_enabledBut, isEnabled, isEnabled, h s]
  have hafter : Agree (i.setAll false timestamp _).1 (j.setAll false timestamp _).1 :=
    h.setAll false hbut
  refine ⟨hafter.setAll true hcome, fun kind ↦ ?_⟩
  rw [replaceType]
  dsimp only
  rw [lastOf_append, lastOf_append, h.lastOf_setAll false hbut, hafter.lastOf_setAll true hcome]

theorem Agree.relistsTypes (h : Agree i j) {interests : List TypeInterest}
    {outcome : Interests × List Change} (ho : RelistsTypes timestamp i interests outcome) :
    Agree outcome.1 (j.replaceTypes timestamp interests).1 ∧
      ∀ kind, lastOf outcome.2 kind = lastOf (j.replaceTypes timestamp interests).2 kind := by
  induction ho generalizing j with
  | nil i => exact ⟨h, fun kind ↦ rfl⟩
  | cons hfirst _ ih =>
    obtain ⟨hagree, hlast⟩ := h.relistsType hfirst
    obtain ⟨hagree', hlast'⟩ := ih hagree
    refine ⟨hagree', fun kind ↦ ?_⟩
    rw [replaceTypes]
    dsimp only
    rw [lastOf_append, lastOf_append, hlast, hlast']

/-- There is an order. -/
theorem exists_relistsTypes (timestamp : Option Instant) (i : Interests)
    (interests : List TypeInterest) : ∃ outcome, RelistsTypes timestamp i interests outcome := by
  induction interests generalizing i with
  | nil => exact ⟨_, .nil i⟩
  | cons interest rest ih =>
    have hfirst : RelistsType timestamp i interest _ :=
      .mk (List.Perm.refl _) interest.subscriptions.nodup_dedup fun s ↦ List.mem_dedup
    obtain ⟨outcome, hrest⟩ := ih _
    exact ⟨_, .cons hfirst hrest⟩

/-- Who handles a topic hangs on what the changes say of each pattern in the end. -/
theorem mem_ids_handlers_followAll {x : Index} (hx : x.Tidy) (p : PeerRef) {cs cs' : List Change}
    (h : ∀ kind, lastOf cs kind = lastOf cs' kind) (topic : Topic) (id : PeerId) :
    id ∈ ((x.followAll p cs).handlers topic).map PeerRef.id ↔
      id ∈ ((x.followAll p cs').handlers topic).map PeerRef.id := by
  rw [Index.mem_ids_handlers (hx.followAll p cs), Index.mem_ids_handlers (hx.followAll p cs')]
  simp only [Index.holdsId_followAll hx, h]

theorem replaceTypes_concat (timestamp : Option Instant) (i : Interests)
    (interests : List TypeInterest) (interest : TypeInterest) :
    (i.replaceTypes timestamp (interests ++ [interest])).1 =
      ((i.replaceTypes timestamp interests).1.replaceType interest timestamp).1 := by
  induction interests generalizing i with
  | nil => rfl
  | cons first rest ih => exact ih (i.replaceType first timestamp).1

/-- **What lists for types leave.**

* What is of no type that has a list stays as it is.
* Each list in turn does to the statuses what `Relisted` says, given what the lists before it have
  left.
* The subscriptions can be gone through in some order; and in whatever order they are, the same is
  known of every subscription afterwards, and an index that follows has the same peers handle each
  topic. -/
theorem statuses_replaceTypes (i : Interests) (timestamp : Option Instant)
    (interests : List TypeInterest) :
    (∀ s : Subscription, (∀ interest ∈ interests, s.type ≠ interest.type) →
      (i.replaceTypes timestamp interests).1.statuses.find? s = i.statuses.find? s) ∧
    (∀ before interest after, interests = before ++ interest :: after →
      Relisted interest timestamp (i.replaceTypes timestamp before).1
        (i.replaceTypes timestamp (before ++ [interest])).1) ∧
    (∃ outcome, RelistsTypes timestamp i interests outcome) ∧
    ∀ outcome, RelistsTypes timestamp i interests outcome →
      (∀ s, outcome.1.statuses.find? s =
        (i.replaceTypes timestamp interests).1.statuses.find? s) ∧
      ∀ (x : Index) (p : PeerRef) (topic : Topic) (id : PeerId), x.Tidy →
        (id ∈ ((x.followAll p outcome.2).handlers topic).map PeerRef.id ↔
          id ∈ ((x.followAll p (i.replaceTypes timestamp interests).2).handlers topic).map
            PeerRef.id) := by
  refine ⟨fun s hs ↦ ?_, fun before interest after _ ↦ ?_, exists_relistsTypes timestamp i interests,
    fun outcome ho ↦ ?_⟩
  · induction interests generalizing i with
    | nil => rfl
    | cons interest rest ih =>
      refine (ih _ fun other hother ↦ hs other (List.mem_cons_of_mem _ hother)).trans ?_
      exact (relisted_replaceType i interest timestamp).others s (Or.inl (hs _ List.mem_cons_self))
  · rw [replaceTypes_concat]
    exact relisted_replaceType _ interest timestamp
  · obtain ⟨hagree, hlast⟩ := Agree.relistsTypes (fun _ ↦ rfl) ho
    exact ⟨hagree, fun x p topic id hx ↦ mem_ids_handlers_followAll hx p hlast topic id⟩

end Directory.Interests

end ServiceBus
