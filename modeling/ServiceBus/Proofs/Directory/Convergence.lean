import Mathlib.Data.Int.Order.Basic
import Mathlib.Data.List.MinMax
import Mathlib.Data.List.Nodup
import ServiceBus.Proofs.Directory.Holding
import ServiceBus.Proofs.Directory.Lateness

/-!
# Updates that come in any order

An *increment* says that a peer has subscribed, or has given up subscriptions, at a known time.
The increments of a peer may come in any order, and one would like the outcome to be the same: each
subscription has the status that the newest increment that names it tells.

That is not so for all increments.  What says nothing new is passed over together with its time, so
after two increments that say the same the status has the time of the first to come; an increment
that says otherwise, and is older than the other one, then takes effect.  `Settles` excludes just
that: whatever may make the status agree with the newest increment is newer than what disagrees.
`Situation.lists_newest_iff` says that this is the exact condition for all orders to come to the
outcome that one would like.
-/

set_option autoImplicit false

namespace ServiceBus.Directory

open Status (announced)

/-- A peer has subscribed, or has given up subscriptions, at a known time. -/
structure Increment where
  /-- The peer has subscribed. -/
  subscribed : Bool
  /-- What the peer has subscribed to, or has given up. -/
  subscriptions : List Subscription
  /-- When it did. -/
  time : Instant
deriving DecidableEq

namespace Increment

/-- The event that tells of it. -/
def event (id : PeerId) (u : Increment) : Event :=
  if u.subscribed then .subscriptionsAdded ⟨id, u.subscriptions, some u.time⟩
  else .subscriptionsRemoved ⟨id, u.subscriptions, some u.time⟩

/-- The status that it tells of. -/
def status (u : Increment) : Status := ⟨u.subscribed, some u.time⟩

/-- It is the newest of some increments that name a subscription. -/
def IsNewest (us : List Increment) (s : Subscription) (u : Increment) : Prop :=
  u ∈ us ∧ s ∈ u.subscriptions ∧ ∀ u' ∈ us, s ∈ u'.subscriptions → u'.time ≤ u.time

/-- The newest increment that names the subscription says that it is subscribed to. -/
def NewestSubscribes (us : List Increment) (s : Subscription) : Prop :=
  ∃ u, IsNewest us s u ∧ u.subscribed = true

/-- It is not older than what is known. -/
def Counts (known : Option Status) (u : Increment) : Prop :=
  ∀ status ∈ known, Instant.isStale status.timestamp (some u.time) = false

/-- The status may come about: it is the one that is known before the increments, or one of them
that is not older tells of it. -/
def MayBe (known : Option Status) (us : List Increment) (s : Subscription) (status : Status) :
    Prop :=
  known = some status ∨
    ∃ u ∈ us, s ∈ u.subscriptions ∧ u.Counts known ∧ u.status = status

/-- Some status that agrees with the newest increment may come about, and all of those are newer
than every increment that disagrees, unless that is passed over anyway. -/
def Settles (known : Option Status) (us : List Increment) (s : Subscription) : Prop :=
  ∀ newest, IsNewest us s newest →
    (∃ status, MayBe known us s status ∧ status.enabled = newest.subscribed) ∧
    ∀ status, MayBe known us s status → status.enabled = newest.subscribed →
      ∀ other ∈ us, s ∈ other.subscriptions → other.Counts known →
        other.subscribed ≠ newest.subscribed → Instant.isStale status.timestamp (some other.time)

/-- A status after an increment. -/
def act (s : Subscription) (known : Option Status) (u : Increment) : Option Status :=
  if s ∈ u.subscriptions then some (announced known u.subscribed (some u.time)) else known

/-- A status after several increments. -/
def actAll (s : Subscription) (known : Option Status) (us : List Increment) : Option Status :=
  us.foldl (act s) known

/-! ## What is passed over -/

variable {s : Subscription} {known : Option Status} {status : Status} {u u' : Increment}
  {us us' : List Increment}

theorem counts_none (u : Increment) : u.Counts none :=
  fun status h ↦ (Option.not_mem_none status h).elim

theorem counts_some_iff :
    u.Counts (some status) ↔ Instant.isStale status.timestamp (some u.time) = false := by
  simp [Counts]

theorem isStale_time_iff :
    Instant.isStale (some u.time) (some u'.time) = true ↔ u'.time < u.time := by
  simp [Instant.isStale]

theorem counts_status_iff : u'.Counts (some u.status) ↔ u.time ≤ u'.time := by
  rw [counts_some_iff, Instant.le_iff_rank]
  simp [status, Instant.isStale, Instant.lt_iff_rank]

/-- What is not older than an increment that counts, counts. -/
theorem Counts.of_le (h : u.Counts known) (hle : u.time ≤ u'.time) : u'.Counts known := by
  intro status hstatus
  have hfresh := h status hstatus
  cases htime : status.timestamp with
  | none => rfl
  | some t =>
    rw [htime] at hfresh
    simp only [Instant.isStale, decide_eq_false_iff_not, Instant.lt_iff_rank] at hfresh ⊢
    rw [Instant.le_iff_rank] at hle
    omega

theorem actAll_append (s : Subscription) (known : Option Status) (us us' : List Increment) :
    actAll s known (us ++ us') = actAll s (actAll s known us) us' :=
  List.foldl_append

theorem actAll_cons (s : Subscription) (known : Option Status) (u : Increment)
    (us : List Increment) : actAll s known (u :: us) = actAll s (act s known u) us := rfl

/-- What agrees with the status is passed over. -/
theorem act_of_same (h : u.subscribed = status.enabled) :
    act s (some status) u = some status := by
  rw [act]
  split
  · rw [Status.announced_of_same h.symm]
  · rfl

/-- What is older than the status is passed over. -/
theorem act_of_not_counts (h : ¬ u.Counts (some status)) : act s (some status) u = some status := by
  rw [counts_some_iff, Bool.not_eq_false] at h
  rw [act]
  split
  · rw [Status.announced_of_stale h]
  · rfl

/-- What is not older than the status and disagrees is taken. -/
theorem act_of_counts (hs : s ∈ u.subscriptions) (hcounts : u.Counts (some status))
    (hother : u.subscribed ≠ status.enabled) : act s (some status) u = some u.status :=
  (if_pos hs).trans
    (congrArg some (Status.announced_of_fresh (counts_some_iff.mp hcounts) hother.symm))

/-- An increment is passed over, or it is not older and its status is taken. -/
theorem act_eq_or (s : Subscription) (known : Option Status) (u : Increment) :
    act s known u = known ∨
      s ∈ u.subscriptions ∧ u.Counts known ∧ act s known u = some u.status := by
  by_cases hs : s ∈ u.subscriptions
  · cases known with
    | none => exact Or.inr ⟨hs, counts_none u, if_pos hs⟩
    | some status =>
      by_cases hcounts : u.Counts (some status)
      · by_cases hsame : u.subscribed = status.enabled
        · exact Or.inl (act_of_same hsame)
        · exact Or.inr ⟨hs, hcounts, act_of_counts hs hcounts hsame⟩
      · exact Or.inl (act_of_not_counts hcounts)
  · exact Or.inl (if_neg hs)

/-- A status stays as it is, or it becomes what an increment tells that is not older. -/
theorem actAll_eq_or (s : Subscription) (known : Option Status) (us : List Increment) :
    actAll s known us = known ∨
      ∃ u ∈ us, s ∈ u.subscriptions ∧ u.Counts known ∧ actAll s known us = some u.status := by
  induction us generalizing known with
  | nil => exact Or.inl rfl
  | cons u us ih =>
    rw [actAll_cons]
    obtain hpassed | ⟨hs, hcounts, htaken⟩ := act_eq_or s known u
    · rw [hpassed]
      refine (ih known).imp_right fun ⟨u', hu', htold⟩ ↦ ?_
      exact ⟨u', List.mem_cons_of_mem _ hu', htold⟩
    · rw [htaken]
      obtain hstill | ⟨u', hu', hs', hcounts', htold⟩ := ih (some u.status)
      · exact Or.inr ⟨u, List.mem_cons_self, hs, hcounts, hstill⟩
      · exact Or.inr ⟨u', List.mem_cons_of_mem _ hu', hs',
          hcounts.of_le (counts_status_iff.mp hcounts'), htold⟩

/-- Only what may come about comes about. -/
theorem mayBe_of_actAll (hsub : us' ⊆ us) (h : actAll s known us' = some status) :
    MayBe known us s status := by
  obtain hsame | ⟨u, hu, hs, hcounts, htold⟩ := actAll_eq_or s known us'
  · exact Or.inl (hsame.symm.trans h)
  · exact Or.inr ⟨u, hsub hu, hs, hcounts, Option.some.inj (htold.symm.trans h)⟩

/-- What is known is not forgotten. -/
theorem eq_none_of_actAll (h : actAll s known us = none) : known = none := by
  obtain hknown | ⟨u, -, -, -, htold⟩ := actAll_eq_or s known us
  · exact hknown.symm.trans h
  · cases h.symm.trans htold

/-- Increments that are passed over, each by itself, are passed over together. -/
theorem actAll_of_passed (h : ∀ u ∈ us, act s known u = known) : actAll s known us = known := by
  induction us with
  | nil => rfl
  | cons u us ih =>
    rw [actAll_cons, h u List.mem_cons_self]
    exact ih fun u' hu' ↦ h u' (List.mem_cons_of_mem _ hu')

theorem actAll_of_same (h : ∀ u ∈ us, u.subscribed = status.enabled) :
    actAll s (some status) us = some status :=
  actAll_of_passed fun u hu ↦ act_of_same (h u hu)

/-- What counts for a status that may come about, counts from the start. -/
theorem MayBe.counts (h : MayBe known us s status) (hcounts : u.Counts (some status)) :
    u.Counts known := by
  obtain rfl | ⟨u', -, -, hcounts', rfl⟩ := h
  · exact hcounts
  · exact hcounts'.of_le (counts_status_iff.mp hcounts)

/-! ## The newest increment -/

theorem exists_isNewest (h : ∃ u ∈ us, s ∈ u.subscriptions) : ∃ u, IsNewest us s u := by
  have hmem : ∀ u, u ∈ us.filter (fun u ↦ s ∈ u.subscriptions) ↔ u ∈ us ∧ s ∈ u.subscriptions := by
    simp
  cases hnewest : (us.filter fun u ↦ s ∈ u.subscriptions).argmax fun u ↦ u.time.rank with
  | some newest =>
    obtain ⟨hus, hs⟩ := (hmem newest).mp (List.argmax_mem hnewest)
    exact ⟨newest, hus, hs, fun u hu hs' ↦
      List.le_of_mem_argmax ((hmem u).mpr ⟨hu, hs'⟩) hnewest⟩
  | none =>
    obtain ⟨u, hu⟩ := h
    rw [← hmem, List.argmax_eq_none.mp hnewest] at hu
    cases hu

/-- Increments of different times have one newest. -/
theorem IsNewest.eq (hdistinct : (us.map time).Nodup) (h : IsNewest us s u)
    (h' : IsNewest us s u') : u = u' := by
  refine List.inj_on_of_nodup_map hdistinct h.1 h'.1 (Instant.rank_injective ?_)
  have hle := Instant.le_iff_rank.mp (h.2.2 u' h'.1 h'.2.1)
  have hle' := Instant.le_iff_rank.mp (h'.2.2 u h.1 h.2.1)
  omega

theorem newestSubscribes_iff {newest : Increment} (hdistinct : (us.map time).Nodup)
    (h : IsNewest us s newest) : NewestSubscribes us s ↔ newest.subscribed = true := by
  refine ⟨?_, fun hsubscribed ↦ ⟨newest, h, hsubscribed⟩⟩
  rintro ⟨u, hu, hsubscribed⟩
  rwa [h.eq hdistinct hu]

theorem not_newestSubscribes (h : ¬ ∃ u ∈ us, s ∈ u.subscriptions) : ¬ NewestSubscribes us s := by
  rintro ⟨u, ⟨hu, hs, -⟩, -⟩
  exact h ⟨u, hu, hs⟩

/-! ## Increments that settle -/

/-- Where nothing is known beforehand, increments settle if those that agree with the newest one
are newer than those that disagree: in the order of time the status changes at most once. -/
theorem settles_none_iff :
    Settles none us s ↔ ∀ newest, IsNewest us s newest → ∀ same ∈ us, ∀ other ∈ us,
      s ∈ same.subscriptions → s ∈ other.subscriptions →
        same.subscribed = newest.subscribed → other.subscribed ≠ newest.subscribed →
          other.time < same.time := by
  refine forall₂_congr fun newest hnewest ↦ ⟨?_, fun h ↦ ⟨?_, ?_⟩⟩
  · rintro ⟨-, h⟩ same hsame other hother hs hs' hagrees hdiffer
    exact isStale_time_iff.mp (h same.status (Or.inr ⟨same, hsame, hs, counts_none same, rfl⟩)
      hagrees other hother hs' (counts_none other) hdiffer)
  · exact ⟨newest.status, Or.inr ⟨newest, hnewest.1, hnewest.2.1, counts_none newest, rfl⟩, rfl⟩
  · intro status hmay hagrees other hother hs' _ hdiffer
    obtain hnone | ⟨same, hsame, hs, -, rfl⟩ := hmay
    · cases hnone
    · exact isStale_time_iff.mpr (h same hsame other hother hs hs' hagrees hdiffer)

/-- What agrees with the newest increment is not undone by what is still to come. -/
theorem actAll_of_settles {newest : Increment} (h : Settles known us s)
    (hnewest : IsNewest us s newest) (hmay : MayBe known us s status)
    (hsame : status.enabled = newest.subscribed) (hsub : us' ⊆ us) :
    actAll s (some status) us' = some status := by
  refine actAll_of_passed fun u hu ↦ ?_
  by_cases hagrees : u.subscribed = newest.subscribed
  · exact act_of_same (hagrees.trans hsame.symm)
  · by_cases hs : s ∈ u.subscriptions
    · refine act_of_not_counts fun hcounts ↦ ?_
      have hstale := (h newest hnewest).2 status hmay hsame u (hsub hu) hs (hmay.counts hcounts)
        hagrees
      rw [counts_some_iff.mp hcounts] at hstale
      cases hstale
    · exact if_neg hs

/-- A status that disagrees with the newest increment is replaced by it. -/
theorem Settles.counts {newest : Increment} (h : Settles known us s)
    (hnewest : IsNewest us s newest) (hmay : MayBe known us s status)
    (hother : newest.subscribed ≠ status.enabled) : newest.Counts (some status) := by
  obtain rfl | ⟨u, hu, hs, -, rfl⟩ := hmay
  · -- some status agrees, and that is not the one that is known
    obtain ⟨⟨agreeing, hagreeing, hsame⟩, -⟩ := h newest hnewest
    obtain hknown | ⟨u, hu, hs, hcounts, -⟩ := hagreeing
    · obtain rfl := Option.some.inj hknown
      exact absurd hsame.symm hother
    · exact hcounts.of_le (hnewest.2.2 u hu hs)
  · exact counts_status_iff.mpr (hnewest.2.2 u hu hs)

/-- Once the newest increment has come, the status agrees with it. -/
theorem act_newest {newest : Increment} (h : Settles known us s) (hnewest : IsNewest us s newest)
    (hsub : us' ⊆ us) :
    ∃ status, act s (actAll s known us') newest = some status ∧ MayBe known us s status ∧
      status.enabled = newest.subscribed := by
  have hs := hnewest.2.1
  cases hbefore : actAll s known us' with
  | none =>
    -- then nothing was known at first, so that everything counts
    obtain rfl := eq_none_of_actAll hbefore
    exact ⟨newest.status, if_pos hs,
      Or.inr ⟨newest, hnewest.1, hs, counts_none newest, rfl⟩, rfl⟩
  | some before =>
    have hmay := mayBe_of_actAll hsub hbefore
    by_cases hagrees : newest.subscribed = before.enabled
    · exact ⟨before, act_of_same hagrees, hmay, hagrees.symm⟩
    · have hcounts := h.counts hnewest hmay hagrees
      exact ⟨newest.status, act_of_counts hs hcounts hagrees,
        Or.inr ⟨newest, hnewest.1, hs, hmay.counts hcounts, rfl⟩, rfl⟩

/-- In whatever order they come, increments that settle end as the newest of them says. -/
theorem actAll_of_perm {newest : Increment} (h : Settles known us s)
    (hnewest : IsNewest us s newest) (hperm : us'.Perm us) :
    ∃ status, actAll s known us' = some status ∧ status.enabled = newest.subscribed := by
  obtain ⟨earlier, later, rfl⟩ := List.append_of_mem (hperm.mem_iff.mpr hnewest.1)
  have hearlier : earlier ⊆ us := fun u hu ↦ hperm.mem_iff.mp (by simp [hu])
  have hlater : later ⊆ us := fun u hu ↦ hperm.mem_iff.mp (by simp [hu])
  obtain ⟨status, htold, hmay, hsame⟩ := act_newest h hnewest hearlier
  rw [actAll_append, actAll_cons, htold, actAll_of_settles h hnewest hmay hsame hlater]
  exact ⟨status, rfl, hsame⟩

/-! ## Increments that do not settle -/

/-- Of increments that all disagree with a status, one that is not older undoes it. -/
theorem actAll_of_others {other : Increment} (hother : other ∈ us) (hs : s ∈ other.subscriptions)
    (hcounts : other.Counts (some status)) (hdiffer : ∀ u ∈ us, u.subscribed = !status.enabled) :
    ∃ status', actAll s (some status) us = some status' ∧ status'.enabled = !status.enabled := by
  obtain ⟨earlier, later, rfl⟩ := List.append_of_mem hother
  rw [actAll_append, actAll_cons]
  -- once that one has come, the status disagrees, and the others agree with that
  suffices htold : ∃ status', act s (actAll s (some status) earlier) other = some status' ∧
      status'.enabled = !status.enabled by
    obtain ⟨status', htold, hflag⟩ := htold
    refine ⟨status', ?_, hflag⟩
    rw [htold]
    exact actAll_of_same fun u hu ↦ (hdiffer u (by simp [hu])).trans hflag.symm
  obtain hstill | ⟨u, hu, -, -, htold⟩ := actAll_eq_or s (some status) earlier
  · rw [hstill]
    have hflag := hdiffer other hother
    exact ⟨other.status, act_of_counts hs hcounts (Bool.eq_not.mp hflag), hflag⟩
  · rw [htold]
    have hflag := hdiffer u (by simp [hu])
    exact ⟨u.status, act_of_same ((hdiffer other hother).trans hflag.symm), hflag⟩

/-- Some order of what agrees with a status that may come about begins with that status, or keeps
the one that agrees from the start. -/
theorem exists_perm_agreeing {other : Increment} (hmay : MayBe known us s status)
    (hcounts : other.Counts (some status)) :
    ∃ first, first.Perm (us.filter fun u ↦ u.subscribed == status.enabled) ∧
      ∃ status', actAll s known first = some status' ∧ status'.enabled = status.enabled ∧
        other.Counts (some status') := by
  have hsame : ∀ u ∈ us.filter (fun u ↦ u.subscribed == status.enabled),
      u.subscribed = status.enabled :=
    fun u hu ↦ beq_iff_eq.mp (List.mem_filter.mp hu).2
  by_cases hknown : ∃ status' ∈ known, status'.enabled = status.enabled
  · obtain ⟨status', rfl, hflag⟩ := hknown
    have hkept := actAll_of_same (s := s) fun u hu ↦ (hsame u hu).trans hflag.symm
    exact ⟨_, .refl _, status', hkept, hflag, hmay.counts hcounts⟩
  · obtain rfl | ⟨u, hu, hs, hcounts', rfl⟩ := hmay
    · exact absurd ⟨status, rfl, rfl⟩ hknown
    · have hmem : u ∈ us.filter (fun u' ↦ u'.subscribed == u.status.enabled) :=
        List.mem_filter.mpr ⟨hu, beq_self_eq_true _⟩
      have htaken : act s known u = some u.status := by
        cases known with
        | none => exact if_pos hs
        | some status' => exact act_of_counts hs hcounts' fun h ↦ hknown ⟨status', rfl, h.symm⟩
      refine ⟨_, (List.perm_cons_erase hmem).symm, u.status, ?_, rfl, hcounts⟩
      rw [actAll_cons, htaken]
      exact actAll_of_same fun u' hu' ↦ hsame u' (List.mem_of_mem_erase hu')

/-- An increment that disagrees with a status that may come about, and is not older, takes effect
in some order: after all that agrees comes what disagrees. -/
theorem exists_perm_of_counts {other : Increment} (hmay : MayBe known us s status)
    (hother : other ∈ us) (hs : s ∈ other.subscriptions) (hcounts : other.Counts (some status))
    (hdiffer : other.subscribed ≠ status.enabled) :
    ∃ us', us'.Perm us ∧ ∃ status', actAll s known us' = some status' ∧
      status'.enabled ≠ status.enabled := by
  obtain ⟨first, hperm, status', htold, hflag, hcounts'⟩ := exists_perm_agreeing hmay hcounts
  have hmem : other ∈ us.filter fun u ↦ !(u.subscribed == status.enabled) :=
    List.mem_filter.mpr ⟨hother, by simpa using hdiffer⟩
  have hothers : ∀ u ∈ us.filter (fun u ↦ !(u.subscribed == status.enabled)),
      u.subscribed = !status'.enabled := by
    intro u hu
    rw [hflag, Bool.eq_not]
    simpa using (List.mem_filter.mp hu).2
  obtain ⟨last, hlast, hflag'⟩ := actAll_of_others hmem hs hcounts' hothers
  refine ⟨first ++ us.filter fun u ↦ !(u.subscribed == status.enabled),
    (hperm.append_right _).trans (List.filter_append_perm _ us), last, ?_, ?_⟩
  · rw [actAll_append, htold, hlast]
  · rw [← hflag]
    exact Bool.eq_not.mp hflag'

/-- Increments settle if all their orders end as the newest of them says. -/
theorem settles_of_perm (hall : ∀ newest, IsNewest us s newest → ∀ us' status, us'.Perm us →
      actAll s known us' = some status → status.enabled = newest.subscribed) :
    Settles known us s := by
  intro newest hnewest
  refine ⟨?_, fun status hmay hsame other hother hs hcounts hdiffer ↦ ?_⟩
  · cases htold : actAll s known us with
    | some status =>
      have hmay := mayBe_of_actAll (List.Subset.refl us) htold
      exact ⟨status, hmay, hall newest hnewest us status (.refl us) htold⟩
    | none =>
      obtain rfl := eq_none_of_actAll htold
      exact ⟨newest.status,
        Or.inr ⟨newest, hnewest.1, hnewest.2.1, counts_none newest, rfl⟩, rfl⟩
  · by_contra hstale
    have hfresh : other.Counts (some status) := by
      rw [counts_some_iff]
      simpa using hstale
    obtain ⟨us', hperm, status', htold, hne⟩ :=
      exists_perm_of_counts hmay hother hs hfresh (hsame ▸ hdiffer)
    exact hne ((hall newest hnewest us' status' hperm htold).trans hsame.symm)

/-- **The exact condition** under which all orders end as the newest increment says, for a
subscription that is not enabled before. -/
theorem actAll_perm_iff (hdistinct : (us.map time).Nodup)
    (hbefore : known.any Status.enabled = false) :
    (∀ us', us'.Perm us →
      ((actAll s known us').any Status.enabled = true ↔ NewestSubscribes us s)) ↔
    Settles known us s := by
  constructor
  · intro hall
    refine settles_of_perm fun newest hnewest us' status hperm htold ↦ ?_
    have hiff := hall us' hperm
    rw [htold, Option.any_some, newestSubscribes_iff hdistinct hnewest] at hiff
    exact Bool.eq_iff_iff.mpr hiff
  · intro h us' hperm
    by_cases hnamed : ∃ u ∈ us, s ∈ u.subscriptions
    · obtain ⟨newest, hnewest⟩ := exists_isNewest hnamed
      obtain ⟨status, htold, hsame⟩ := actAll_of_perm h hnewest hperm
      rw [htold, newestSubscribes_iff hdistinct hnewest, Option.any_some, hsame]
    · have hsame : actAll s known us' = known := by
        obtain hsame | ⟨u, hu, hs, -⟩ := actAll_eq_or s known us'
        · exact hsame
        · exact absurd ⟨u, hperm.mem_iff.mp hu, hs⟩ hnamed
      rw [hsame, hbefore]
      simp [not_newestSubscribes hnamed]

end Increment

/-! ## What a client makes of increments -/

open Increment (NewestSubscribes Settles actAll actAll_perm_iff)

namespace Registry

/-- A registry after increments of a peer. -/
def increase (r : Registry) (id : PeerId) (us : List Increment) : Registry :=
  Deed.performAll r (us.map fun u ↦ .apply (u.event id))

/-- A descriptor lists what is enabled. -/
theorem exists_descriptor?_of_interests? {r : Registry} {id : PeerId} {i : Interests}
    (h : r.interests? id = some i) :
    ∃ d, r.descriptor? id = some d ∧ d.subscriptions = i.enabled := by
  obtain ⟨m, hm, rfl⟩ := Option.map_eq_some_iff.mp h
  exact ⟨m.descriptor, by rw [descriptor?, hm]; rfl, rfl⟩

theorem interests?_of_descriptor? {r : Registry} {id : PeerId} {d : Descriptor PeerRef}
    (h : r.descriptor? id = some d) :
    ∃ i, r.interests? id = some i ∧ d.subscriptions = i.enabled := by
  obtain ⟨m, hm, rfl⟩ := Option.map_eq_some_iff.mp h
  exact ⟨m.interests, interests?_of_known hm, rfl⟩

theorem status?_of_interests? {r : Registry} {id : PeerId} {i : Interests}
    (h : r.interests? id = some i) (s : Subscription) : r.status? id s = i.statuses.find? s := by
  rw [status?, h, Option.bind_some]

namespace Follows

variable {r : Registry} {l : Chronicle} {id : PeerId} {i : Interests}

/-- An increment of a known peer announces all that it names. -/
theorem interests?_increment (h : r.Follows l) (hi : r.interests? id = some i) (u : Increment) :
    ((Deed.apply (u.event id)).perform r).interests? id =
      some (i.setAll u.subscribed (some u.time) u.subscriptions).1 := by
  obtain ⟨m, hm, rfl⟩ := Option.map_eq_some_iff.mp hi
  refine (h.interests?_apply (u.event id) id).trans ?_
  cases hsubscribed : u.subscribed <;>
    simp [Increment.event, hsubscribed, Event.peer, Deed.appliedInterests, hm]

/-- Increments act on the status of each subscription by itself. -/
theorem interests?_increase (h : r.Follows l) (hi : r.interests? id = some i)
    (us : List Increment) :
    ∃ i', (r.increase id us).interests? id = some i' ∧
      ∀ s, i'.statuses.find? s = actAll s (i.statuses.find? s) us := by
  induction us generalizing r l i with
  | nil => exact ⟨i, hi, fun s ↦ rfl⟩
  | cons u us ih =>
    obtain ⟨i', hi', hstatuses⟩ := ih (h.perform _) (h.interests?_increment hi u)
    refine ⟨i', hi', fun s ↦ ?_⟩
    rw [hstatuses, Interests.find?_setAll]
    rfl

/-- What a peer that is known lists after increments of it. -/
theorem descriptor?_increase (h : r.Follows l) (hi : r.interests? id = some i)
    (us : List Increment) :
    ∃ d, (r.increase id us).descriptor? id = some d ∧
      ∀ s, s ∈ d.subscriptions ↔ (actAll s (r.status? id s) us).any Status.enabled = true := by
  obtain ⟨i', hi', hstatuses⟩ := h.interests?_increase hi us
  obtain ⟨d, hd, hlist⟩ := exists_descriptor?_of_interests? hi'
  refine ⟨d, hd, fun s ↦ ?_⟩
  rw [hlist, Interests.mem_enabled, Interests.isEnabled, hstatuses, status?_of_interests? hi]

/-- For a known peer that lists nothing: all orders of its increments end with what the newest ones
say, exactly if the increments settle. -/
theorem lists_newest_increase_iff (h : r.Follows l) {d : Descriptor PeerRef}
    (hknown : r.descriptor? id = some d) (hnone : d.subscriptions = []) {us : List Increment}
    (hdistinct : (us.map Increment.time).Nodup) :
    (∀ us', us'.Perm us → ∃ d', (r.increase id us').descriptor? id = some d' ∧
      ∀ s, s ∈ d'.subscriptions ↔ NewestSubscribes us s) ↔
    ∀ s, Settles (r.status? id s) us s := by
  obtain ⟨i, hi, hlist⟩ := interests?_of_descriptor? hknown
  have hbefore : ∀ s, (r.status? id s).any Status.enabled = false := by
    intro s
    rw [status?_of_interests? hi]
    have hnot : s ∉ i.enabled := by
      rw [← hlist, hnone]
      exact List.not_mem_nil
    rw [Interests.mem_enabled] at hnot
    exact Bool.eq_false_iff.mpr hnot
  constructor
  · intro hall s
    rw [← actAll_perm_iff hdistinct (hbefore s)]
    intro us' hperm
    obtain ⟨d', hd', hnewest⟩ := hall us' hperm
    obtain ⟨d'', hd'', hlists⟩ := h.descriptor?_increase hi us'
    obtain rfl := Option.some.inj (hd'.symm.trans hd'')
    rw [← hlists, hnewest]
  · intro hsettles us' hperm
    obtain ⟨d', hd', hlists⟩ := h.descriptor?_increase hi us'
    refine ⟨d', hd', fun s ↦ ?_⟩
    rw [hlists]
    exact (actAll_perm_iff hdistinct (hbefore s)).mpr (hsettles s) us' hperm

end Follows

end Registry

namespace Situation

/-- The events of increments come in. -/
def increments (id : PeerId) (us : List Increment) : List Act := us.map fun u ↦ .event (u.event id)

/-- As long as no registration is going on, events are applied as they come. -/
theorem registry_run_increments {s : Situation} (h : s.client.held = none) (id : PeerId)
    (us : List Increment) :
    (s.run (increments id us)).client.registry = s.client.registry.increase id us := by
  have happlied := registry_run_events h (us.map fun u ↦ u.event id)
  rw [List.map_map, ← Deed.performAll_apply, List.map_map] at happlied
  exact happlied

/-- **When the order of increments does not matter.**  In every situation that a client can get
into, while no registration is going on, take a known peer that lists no subscription, and
increments of it whose times differ.  In whatever order they come, the peer lists in the end just
what the newest increments say, exactly if for every subscription

* something agrees with the newest increment that names it, that is to say an increment that is not
  older than what is known of the subscription beforehand, or what is known itself;
* all that so agrees is newer than each such increment that disagrees. -/
theorem lists_newest_iff (settings : Settings) (clock : Clock) (roster : Roster) (acts : List Act)
    (id : PeerId) (us : List Increment) {d : Descriptor PeerRef}
    (hheld : ((start settings clock roster).run acts).client.held = none)
    (hknown : ((start settings clock roster).run acts).client.registry.descriptor? id = some d)
    (hnone : d.subscriptions = []) (hdistinct : (us.map Increment.time).Nodup) :
    (∀ us', us'.Perm us → ∃ d',
      ((start settings clock roster).run (acts ++ increments id us')).client.registry.descriptor?
        id = some d' ∧
      ∀ s, s ∈ d'.subscriptions ↔ NewestSubscribes us s) ↔
    ∀ s, Settles (((start settings clock roster).run acts).client.registry.status? id s) us s := by
  simp only [run_append, registry_run_increments hheld]
  exact (follows_run settings clock roster acts).lists_newest_increase_iff hknown hnone hdistinct

/-! ## Two orders of the same increments -/

/-- A peer subscribes to the type, so many seconds after noon. -/
def subscribes (seconds : Nat) : Increment := ⟨true, [.toAll fakeEvent], afterNoon seconds⟩

/-- It gives up the subscription, so many seconds after noon. -/
def givesUp (seconds : Nat) : Increment := ⟨false, [.toAll fakeEvent], afterNoon seconds⟩

theorem settles_givesUpFirst (s : Subscription) :
    Settles none [givesUp 1, subscribes 2, subscribes 3] s := by
  rw [Increment.settles_none_iff]
  rintro newest ⟨hnewest, hs, hle⟩ same hsame other hother - - hagrees hdiffer
  simp only [List.mem_cons, List.not_mem_nil, or_false] at hnewest hsame hother
  have hlast : (subscribes 3).time ≤ newest.time := by
    refine hle _ (by simp) ?_
    obtain rfl | rfl | rfl := hnewest <;> exact hs
  obtain rfl | rfl | rfl := hnewest
  · exact absurd hlast (by decide)
  · exact absurd hlast (by decide)
  · obtain rfl | rfl | rfl := hother
    · obtain rfl | rfl | rfl := hsame
      · cases hagrees
      · decide
      · decide
    · exact absurd rfl hdiffer
    · exact absurd rfl hdiffer

/-- The newest of these three subscribes, whatever the other two do. -/
theorem newestSubscribes_subscribes {u u' : Increment} (h : u.time ≤ (subscribes 3).time)
    (h' : u'.time ≤ (subscribes 3).time) :
    NewestSubscribes [u, u', subscribes 3] (.toAll fakeEvent) := by
  refine ⟨subscribes 3, ⟨by simp, by simp [subscribes], fun v hv _ ↦ ?_⟩, rfl⟩
  simp only [List.mem_cons, List.not_mem_nil, or_false] at hv
  obtain rfl | rfl | rfl := hv
  · exact h
  · exact h'
  · exact Int.le_refl _

/-- A peer that gives up a subscription first, and then subscribes twice, lists it in the end, even
if the newest of the three comes first. -/
theorem lists_givesUpFirst :
    ∃ d, (inMarch.run ([startsBare] ++ increments ⟨"Abc.P.0"⟩
        [subscribes 3, givesUp 1, subscribes 2])).client.registry.descriptor? ⟨"Abc.P.0"⟩ = some d ∧
      .toAll fakeEvent ∈ d.subscriptions := by
  have hiff := lists_newest_iff {} ⟨⟨⟨2024, 3, 1⟩, 12, 0, 0, 0, by decide⟩, []⟩ {} [startsBare]
    ⟨"Abc.P.0"⟩ [givesUp 1, subscribes 2, subscribes 3] rfl rfl
    (List.mergeSort_nil ..) (by decide)
  obtain ⟨d, hd, hlists⟩ := hiff.mpr settles_givesUpFirst [subscribes 3, givesUp 1, subscribes 2]
    (by decide)
  exact ⟨d, hd, (hlists _).mpr (newestSubscribes_subscribes (by decide) (by decide))⟩

/-- **The order of increments can matter.**  A peer that lists nothing subscribes, gives up the
subscription and subscribes again.  It lists the subscription in the end if this comes in as it
took place; if the two that subscribe come first, the second of them is passed over together with
its time, and the older one that gives up takes effect. -/
theorem asks_subscribes_perm :
    (inMarch.run [startsBare]).client.held = none ∧
    (∃ d, (inMarch.run [startsBare]).client.registry.descriptor? ⟨"Abc.P.0"⟩ = some d ∧
      d.subscriptions = []) ∧
    ([subscribes 1, givesUp 2, subscribes 3].map Increment.time).Nodup ∧
    [subscribes 1, subscribes 3, givesUp 2].Perm [subscribes 1, givesUp 2, subscribes 3] ∧
    NewestSubscribes [subscribes 1, givesUp 2, subscribes 3] (.toAll fakeEvent) ∧
    (inMarch.run ([startsBare] ++ increments ⟨"Abc.P.0"⟩
      [subscribes 1, givesUp 2, subscribes 3])).client.registry.asks ⟨"Abc.P.0"⟩
        (.toAll fakeEvent) = true ∧
    (inMarch.run ([startsBare] ++ increments ⟨"Abc.P.0"⟩
      [subscribes 1, subscribes 3, givesUp 2])).client.registry.asks ⟨"Abc.P.0"⟩
        (.toAll fakeEvent) = false :=
  ⟨rfl, ⟨_, rfl, List.mergeSort_nil ..⟩, by decide, by decide,
    newestSubscribes_subscribes (by decide) (by decide), by decide, by decide⟩

end Situation

end ServiceBus.Directory
