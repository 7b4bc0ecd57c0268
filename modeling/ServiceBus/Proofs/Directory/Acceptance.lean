import ServiceBus.Proofs.Directory.Changes
import ServiceBus.Proofs.Directory.Statuses

/-!
# Which announcements are taken

An announcement of a subscription is passed over when what is known of the subscription is newer,
and otherwise the subscription is enabled or disabled as the announcement says.  So what becomes of
the flags hangs on two things, on the flags before and on `Interests.isNewer`; the same two tell
which changes an operation gives.

A replacement of the whole set is told here in full: what it leaves of each status, which flags it
leaves, and that to do it a second time changes no flag and only clears the remains of the first
(`Interests.replace_replace`).
-/

set_option autoImplicit false

namespace ServiceBus

/-- An instant is not older than itself. -/
@[simp]
theorem Instant.isStale_self (t : Option Instant) : Instant.isStale t t = false := by
  cases t <;> simp [Instant.isStale, Instant.lt_iff_rank]

namespace Directory

theorem Status.enabled_announced (known : Option Status) (enabled : Bool)
    (timestamp : Option Instant) :
    (announced known enabled timestamp).enabled =
      if known.any (fun status ↦ Instant.isStale status.timestamp timestamp) then
        known.any Status.enabled
      else enabled := by
  cases known with
  | none => rfl
  | some status =>
    rw [announced, Option.any_some, Option.any_some]
    by_cases hstale : Instant.isStale status.timestamp timestamp
    · simp [hstale]
    · by_cases hsame : status.enabled = enabled <;> simp [hstale, hsame]

/-- An announcement does not make a status newer than itself. -/
theorem Status.isStale_announced (known : Option Status) (enabled : Bool)
    (timestamp : Option Instant) :
    Instant.isStale (announced known enabled timestamp).timestamp timestamp =
      known.any fun status ↦ Instant.isStale status.timestamp timestamp := by
  obtain h | h := announced_eq_or known enabled timestamp
  · cases known with
    | none => simp
    | some status =>
      rw [announced, Option.any_some]
      by_cases hstale : Instant.isStale status.timestamp timestamp
      · simp [hstale]
      · by_cases hsame : status.enabled = enabled <;> simp [hstale, hsame]
  · conv_rhs => rw [h]
    rfl

/-- The subscriptions that patterns make are to their type. -/
theorem TypeInterest.type_of_mem {interest : TypeInterest} {s : Subscription}
    (h : s ∈ interest.subscriptions) : s.type = interest.type := by
  obtain ⟨pattern, -, rfl⟩ := List.mem_map.mp h
  rfl

/-- What replacements of types say of a subscription: the last one of its type decides. -/
def TypeInterest.says? : List TypeInterest → Subscription → Option Bool
  | [], _ => none
  | interest :: rest, s =>
    (says? rest s).or
      (if s.type = interest.type then some (decide (s ∈ interest.subscriptions)) else none)

namespace Interests

open Status (announced)

/-- What is known of a subscription is newer than a time. -/
def isNewer (i : Interests) (s : Subscription) (timestamp : Option Instant) : Bool :=
  (i.statuses.find? s).any fun status ↦ Instant.isStale status.timestamp timestamp

/-! ## Several announcements that say the same -/

theorem isEnabled_setAll (enabled : Bool) (timestamp : Option Instant) (i : Interests)
    (ss : List Subscription) (s : Subscription) :
    (i.setAll enabled timestamp ss).1.isEnabled s =
      if s ∈ ss ∧ i.isNewer s timestamp = false then enabled else i.isEnabled s := by
  rw [isEnabled, find?_setAll, isEnabled, isNewer]
  by_cases hs : s ∈ ss
  · rw [if_pos hs, Option.any_some, Status.enabled_announced]
    cases (i.statuses.find? s).any fun status ↦ Instant.isStale status.timestamp timestamp <;>
      simp [hs]
  · simp [hs]

theorem isNewer_setAll (enabled : Bool) (timestamp : Option Instant) (i : Interests)
    (ss : List Subscription) (s : Subscription) :
    (i.setAll enabled timestamp ss).1.isNewer s timestamp = i.isNewer s timestamp := by
  rw [isNewer, find?_setAll, isNewer]
  split
  · rw [Option.any_some, Status.isStale_announced]
  · rfl

/-- An announcement gives a change if it changes the flag. -/
theorem mem_changes_set {i : Interests} {s : Subscription} {enabled : Bool}
    {timestamp : Option Instant} {c : Change} :
    c ∈ (i.set s enabled timestamp).2 ↔
      c = ⟨s, enabled⟩ ∧ i.isEnabled s ≠ enabled ∧ i.isNewer s timestamp = false := by
  rw [set, isEnabled, isNewer]
  cases i.statuses.find? s with
  | none => cases enabled <;> simp
  | some status =>
    dsimp only
    rw [Option.any_some, Option.any_some]
    by_cases hstale : Instant.isStale status.timestamp timestamp
    · simp [hstale]
    · by_cases hsame : status.enabled = enabled <;> simp [hstale, hsame]

theorem mem_changes_setAll {i : Interests} {ss : List Subscription} {enabled : Bool}
    {timestamp : Option Instant} {c : Change} :
    c ∈ (i.setAll enabled timestamp ss).2 ↔
      c.enabled = enabled ∧ c.subscription ∈ ss ∧ i.isEnabled c.subscription ≠ enabled ∧
        i.isNewer c.subscription timestamp = false := by
  induction ss generalizing i with
  | nil => simp [setAll]
  | cons s ss ih =>
    have hone : i.set s enabled timestamp = i.setAll enabled timestamp [s] := by simp [setAll]
    have hcons : (i.setAll enabled timestamp (s :: ss)).2 =
        (i.set s enabled timestamp).2 ++
          ((i.set s enabled timestamp).1.setAll enabled timestamp ss).2 := rfl
    rw [hcons, List.mem_append, ih, mem_changes_set, hone, isEnabled_setAll, isNewer_setAll]
    obtain ⟨s', enabled'⟩ := c
    by_cases hs : s' = s
    · subst hs
      by_cases hnewer : i.isNewer s' timestamp = false <;> simp [hnewer]
    · simp [hs]

/-- What is passed over, each by itself, is passed over together. -/
theorem setAll_of_passed {i : Interests} {ss : List Subscription} {enabled : Bool}
    {timestamp : Option Instant}
    (h : ∀ s ∈ ss, ∃ status, i.statuses.find? s = some status ∧
      (Instant.isStale status.timestamp timestamp ∨ status.enabled = enabled)) :
    i.setAll enabled timestamp ss = (i, []) := by
  induction ss with
  | nil => rfl
  | cons s ss ih =>
    obtain ⟨status, hfind, hpassed⟩ := h s List.mem_cons_self
    have hset : i.set s enabled timestamp = (i, []) := by
      rw [set, hfind]
      exact if_pos hpassed
    rw [setAll, hset]
    dsimp only
    rw [ih fun s' hs' ↦ h s' (List.mem_cons_of_mem _ hs')]
    rfl

/-- To announce the same a second time changes nothing. -/
theorem setAll_setAll (enabled : Bool) (timestamp : Option Instant) (i : Interests)
    (ss : List Subscription) :
    (i.setAll enabled timestamp ss).1.setAll enabled timestamp ss =
      ((i.setAll enabled timestamp ss).1, []) := by
  refine setAll_of_passed fun s hs ↦ ⟨_, by rw [find?_setAll, if_pos hs], ?_⟩
  rw [Status.isStale_announced, Status.enabled_announced]
  split
  · next hstale => exact Or.inl hstale
  · exact Or.inr rfl

/-- What changes come to that all say the same. -/
theorem lastOf_eq_some_iff_of_mem {cs : List Change} {enabled : Bool} {p : Subscription → Prop}
    (hmem : ∀ c, c ∈ cs ↔ c.enabled = enabled ∧ p c.subscription) {kind : Subscription → Bool}
    {enabled' : Bool} :
    lastOf cs kind = some enabled' ↔ enabled' = enabled ∧ ∃ s, kind s ∧ p s := by
  constructor
  · intro hlast
    obtain ⟨before, c, after, rfl, hkind, rfl, -⟩ := lastOf_eq_some_iff.mp hlast
    obtain ⟨henabled, hp⟩ := (hmem c).mp (by simp)
    exact ⟨henabled, c.subscription, hkind, hp⟩
  · rintro ⟨rfl, s, hkind, hp⟩
    have hc : (⟨s, enabled'⟩ : Change) ∈ cs := (hmem _).mpr ⟨rfl, hp⟩
    cases hlast : lastOf cs kind with
    | none => exact absurd hkind (lastOf_eq_none_iff.mp hlast _ hc)
    | some enabled =>
      obtain ⟨before, c', after, rfl, -, rfl, -⟩ := lastOf_eq_some_iff.mp hlast
      rw [((hmem c').mp (by simp)).1]

theorem lastOf_setAll_eq_some_iff {i : Interests} {ss : List Subscription}
    {enabled enabled' : Bool} {timestamp : Option Instant} {kind : Subscription → Bool} :
    lastOf (i.setAll enabled timestamp ss).2 kind = some enabled' ↔
      enabled' = enabled ∧
        ∃ s, kind s ∧ s ∈ ss ∧ i.isEnabled s ≠ enabled ∧ i.isNewer s timestamp = false :=
  lastOf_eq_some_iff_of_mem fun _ ↦ mem_changes_setAll

/-! ## One type -/

theorem mem_enabledBut {i : Interests} {type : MessageType} {ss : List Subscription}
    {s : Subscription} :
    s ∈ i.enabledBut type ss ↔ i.isEnabled s = true ∧ s.type = type ∧ s ∉ ss := by
  rw [enabledBut, Table.mem_keys_iff, Table.find?_filter, isEnabled]
  cases i.statuses.find? s with
  | none => simp
  | some status =>
    cases henabled : status.enabled <;> by_cases htype : s.type = type <;>
      by_cases hs : s ∈ ss <;> simp [Option.filter_some, henabled, htype, hs]

/-- The subscriptions to the type that are not newer are enabled just if they are listed. -/
theorem isEnabled_replaceType (i : Interests) (interest : TypeInterest)
    (timestamp : Option Instant) (s : Subscription) :
    (i.replaceType interest timestamp).1.isEnabled s =
      if s.type = interest.type ∧ i.isNewer s timestamp = false then
        decide (s ∈ interest.subscriptions)
      else i.isEnabled s := by
  have heq : (i.replaceType interest timestamp).1 =
      ((i.setAll false timestamp (i.enabledBut interest.type interest.subscriptions)).1.setAll true
        timestamp interest.subscriptions).1 := rfl
  rw [heq, isEnabled_setAll, isNewer_setAll, isEnabled_setAll]
  by_cases hs : s ∈ interest.subscriptions
  · have htype := TypeInterest.type_of_mem hs
    cases i.isNewer s timestamp <;> simp [hs, htype, mem_enabledBut]
  · by_cases htype : s.type = interest.type
    · cases i.isNewer s timestamp <;> cases henabled : i.isEnabled s <;>
        simp [hs, htype, henabled, mem_enabledBut]
    · simp [hs, htype, mem_enabledBut]

theorem isNewer_replaceType (i : Interests) (interest : TypeInterest)
    (timestamp : Option Instant) (s : Subscription) :
    (i.replaceType interest timestamp).1.isNewer s timestamp = i.isNewer s timestamp :=
  (isNewer_setAll ..).trans (isNewer_setAll ..)

/-- A replacement of one type gives changes of that type only. -/
theorem type_of_mem_replaceType {i : Interests} {interest : TypeInterest}
    {timestamp : Option Instant} {c : Change} (h : c ∈ (i.replaceType interest timestamp).2) :
    c.subscription.type = interest.type := by
  obtain h | h := List.mem_append.mp h
  · exact (mem_enabledBut.mp (mem_changes_setAll.mp h).2.1).2.1
  · exact TypeInterest.type_of_mem (mem_changes_setAll.mp h).2.1

/-- Each change that it gives is seen afterwards. -/
theorem isEnabled_ne_of_mem_replaceType {i : Interests} {interest : TypeInterest}
    {timestamp : Option Instant} {c : Change} (h : c ∈ (i.replaceType interest timestamp).2) :
    (i.replaceType interest timestamp).1.isEnabled c.subscription ≠
      i.isEnabled c.subscription := by
  have htype := type_of_mem_replaceType h
  obtain h | h := List.mem_append.mp h
  · obtain ⟨-, hs, -, hnewer⟩ := mem_changes_setAll.mp h
    obtain ⟨henabled, -, hnot⟩ := mem_enabledBut.mp hs
    simp [isEnabled_replaceType, htype, hnewer, henabled, hnot]
  · obtain ⟨-, hs, hdisabled, hnewer⟩ := mem_changes_setAll.mp h
    rw [isNewer_setAll] at hnewer
    rw [isEnabled_setAll, if_neg fun hgone ↦ (mem_enabledBut.mp hgone.1).2.2 hs] at hdisabled
    simpa [isEnabled_replaceType, htype, hnewer, hs] using hdisabled.symm

theorem isNewer_replaceTypes (timestamp : Option Instant) (i : Interests)
    (interests : List TypeInterest) (s : Subscription) :
    (i.replaceTypes timestamp interests).1.isNewer s timestamp = i.isNewer s timestamp := by
  induction interests generalizing i with
  | nil => rfl
  | cons interest rest ih => exact (ih _).trans (i.isNewer_replaceType interest timestamp s)

/-- The subscriptions that are not newer are as the last replacement of their type says. -/
theorem isEnabled_replaceTypes (timestamp : Option Instant) (i : Interests)
    (interests : List TypeInterest) (s : Subscription) :
    (i.replaceTypes timestamp interests).1.isEnabled s =
      if i.isNewer s timestamp then i.isEnabled s
      else (TypeInterest.says? interests s).getD (i.isEnabled s) := by
  induction interests generalizing i with
  | nil => simp [replaceTypes, TypeInterest.says?]
  | cons interest rest ih =>
    refine (ih (i.replaceType interest timestamp).1).trans ?_
    rw [isNewer_replaceType, isEnabled_replaceType, TypeInterest.says?]
    by_cases htype : s.type = interest.type
    · cases i.isNewer s timestamp <;> cases TypeInterest.says? rest s <;> simp [htype]
    · cases TypeInterest.says? rest s <;> simp [htype]

/-! ## The whole set -/

theorem find?_enableNew (timestamp : Option Instant) (i : Interests) (ss : List Subscription)
    (s : Subscription) :
    (i.enableNew timestamp ss).1.statuses.find? s =
      if s ∈ ss then some ((i.statuses.find? s).getD ⟨true, timestamp⟩)
      else i.statuses.find? s := by
  induction ss generalizing i with
  | nil => rfl
  | cons s' ss ih =>
    rw [enableNew, Table.contains]
    cases hfind : i.statuses.find? s' with
    | some status =>
      rw [Option.isSome_some, if_pos rfl, ih]
      by_cases hs : s = s'
      · subst hs
        simp [hfind]
      · simp [hs]
    | none =>
      simp only [Option.isSome_none, Bool.false_eq_true, if_false]
      rw [ih, find?_set]
      by_cases hs : s = s'
      · subst hs
        simp [hfind]
      · simp [hs]

theorem mem_changes_enableNew {i : Interests} {ss : List Subscription}
    {timestamp : Option Instant} {c : Change} :
    c ∈ (i.enableNew timestamp ss).2 ↔
      c.enabled = true ∧ c.subscription ∈ ss ∧ i.statuses.find? c.subscription = none := by
  induction ss generalizing i with
  | nil => simp [enableNew]
  | cons s ss ih =>
    obtain ⟨s', enabled⟩ := c
    rw [enableNew, Table.contains]
    cases hfind : i.statuses.find? s with
    | some status =>
      rw [Option.isSome_some, if_pos rfl, ih]
      by_cases hs : s' = s
      · subst hs
        simp [hfind]
      · simp [hs]
    | none =>
      have hset : i.set s true timestamp =
          (⟨i.statuses.insert s ⟨true, timestamp⟩⟩, [⟨s, true⟩]) := by simp [set, hfind]
      simp only [Option.isSome_none, Bool.false_eq_true, if_false]
      rw [List.mem_append, ih, hset]
      by_cases hs : s' = s
      · subst hs
        cases enabled <;> simp [hfind, Table.find?_insert]
      · simp [hs, Table.find?_insert]

theorem lastOf_enableNew_eq_some_iff {i : Interests} {ss : List Subscription} {enabled : Bool}
    {timestamp : Option Instant} {kind : Subscription → Bool} :
    lastOf (i.enableNew timestamp ss).2 kind = some enabled ↔
      enabled = true ∧ ∃ s, kind s ∧ s ∈ ss ∧ i.statuses.find? s = none :=
  lastOf_eq_some_iff_of_mem fun _ ↦ mem_changes_enableNew

/-- To enable what is known already changes nothing. -/
theorem enableNew_of_known {i : Interests} {ss : List Subscription} {timestamp : Option Instant}
    (h : ∀ s ∈ ss, i.statuses.contains s = true) : i.enableNew timestamp ss = (i, []) := by
  induction ss with
  | nil => rfl
  | cons s ss ih =>
    rw [enableNew, if_pos (h s List.mem_cons_self)]
    exact ih fun s' hs' ↦ h s' (List.mem_cons_of_mem _ hs')

/-- The subscriptions that a replacement takes away. -/
def gone (i : Interests) (ss : List Subscription) : List Subscription :=
  i.withoutRemains.statuses.keys.filter fun s ↦ s ∉ ss

theorem mem_gone {i : Interests} {ss : List Subscription} {s : Subscription} :
    s ∈ i.gone ss ↔ i.isEnabled s = true ∧ s ∉ ss := by
  rw [gone, List.mem_filter, mem_keys_withoutRemains]
  simp

theorem replace_fst (i : Interests) (ss : List Subscription) (timestamp : Option Instant) :
    (i.replace ss timestamp).1 =
      ((i.withoutRemains.setAll false timestamp (i.gone ss)).1.enableNew timestamp ss).1 := rfl

theorem replace_snd (i : Interests) (ss : List Subscription) (timestamp : Option Instant) :
    (i.replace ss timestamp).2 =
      (i.withoutRemains.setAll false timestamp (i.gone ss)).2 ++
        ((i.withoutRemains.setAll false timestamp (i.gone ss)).1.enableNew timestamp ss).2 := rfl

/-- **What a replacement leaves of a status.**  What was enabled and is listed keeps its status, so
also its time; what was enabled and is not listed hears that it is disabled; and of all else nothing
is known but that it is enabled from now on, if it is listed. -/
theorem find?_replace (i : Interests) (ss : List Subscription) (timestamp : Option Instant)
    (s : Subscription) :
    (i.replace ss timestamp).1.statuses.find? s =
      if i.isEnabled s then
        if s ∈ ss then i.statuses.find? s
        else some (announced (i.statuses.find? s) false timestamp)
      else if s ∈ ss then some ⟨true, timestamp⟩ else none := by
  rw [replace_fst, find?_enableNew, find?_setAll, find?_withoutRemains]
  have hgone : s ∈ i.gone ss ↔ i.isEnabled s = true ∧ s ∉ ss := mem_gone
  by_cases hs : s ∈ ss
  · by_cases henabled : i.isEnabled s = true
    · have hsome : (i.statuses.find? s).isSome = true := by
        rw [isEnabled] at henabled
        cases hfind : i.statuses.find? s with
        | none => simp [hfind] at henabled
        | some status => rfl
      obtain ⟨status, hstatus⟩ := Option.isSome_iff_exists.mp hsome
      simp [hgone, hs, henabled, hstatus]
    · simp [hgone, hs, henabled]
  · by_cases henabled : i.isEnabled s = true <;> simp [hgone, hs, henabled]

/-- What is enabled after a replacement: what is listed, and what was enabled more recently. -/
theorem isEnabled_replace (i : Interests) (ss : List Subscription) (timestamp : Option Instant)
    (s : Subscription) :
    (i.replace ss timestamp).1.isEnabled s =
      (decide (s ∈ ss) || (i.isEnabled s && i.isNewer s timestamp)) := by
  have hflag : (i.statuses.find? s).any Status.enabled = i.isEnabled s := rfl
  rw [isEnabled, find?_replace]
  by_cases hs : s ∈ ss
  · cases henabled : i.isEnabled s <;> simp [hs, henabled, hflag]
  · cases henabled : i.isEnabled s with
    | false => simp [hs]
    | true =>
      rw [if_pos rfl, if_neg hs, Option.any_some, Status.enabled_announced, hflag, henabled,
        isNewer]
      cases (i.statuses.find? s).any fun status ↦ Instant.isStale status.timestamp timestamp <;>
        simp [hs]

/-- What a replacement leaves disabled was taken away by it, as of its own time. -/
theorem find?_replace_of_disabled {i : Interests} {ss : List Subscription}
    {timestamp : Option Instant} {s : Subscription}
    (h : (i.replace ss timestamp).1.isEnabled s = false) :
    (i.replace ss timestamp).1.statuses.find? s =
      if i.isEnabled s then some ⟨false, timestamp⟩ else none := by
  have hnot : s ∉ ss := fun hs ↦ by simp [isEnabled_replace, hs] at h
  rw [find?_replace]
  cases henabled : i.isEnabled s with
  | false => simp [hnot]
  | true =>
    rw [if_pos rfl, if_pos rfl, if_neg hnot]
    obtain hnow | hkept := Status.announced_eq_or (i.statuses.find? s) false timestamp
    · rw [hnow]
    · -- a status that is kept would still be enabled
      rw [isEnabled, find?_replace, if_pos henabled, if_neg hnot, ← hkept] at h
      exact absurd (h.symm.trans henabled) (by simp)

theorem lastOf_withdrawal_eq_some_iff {i : Interests} {enabled : Bool}
    {kind : Subscription → Bool} :
    lastOf i.withdrawal kind = some enabled ↔
      enabled = false ∧ ∃ s, kind s ∧ i.isEnabled s = true := by
  refine lastOf_eq_some_iff_of_mem fun c ↦ ?_
  rw [withdrawal, List.mem_map]
  constructor
  · rintro ⟨s, hs, rfl⟩
    exact ⟨rfl, mem_keys_withoutRemains.mp hs⟩
  · rintro ⟨hdisabled, henabled⟩
    exact ⟨c.subscription, mem_keys_withoutRemains.mpr henabled, by rw [← hdisabled]⟩

/-- A replacement that takes nothing away and brings nothing new clears the remains. -/
theorem replace_of_same {i : Interests} {ss : List Subscription} {timestamp : Option Instant}
    (hlisted : ∀ s ∈ ss, i.isEnabled s = true)
    (hkept : ∀ s, i.isEnabled s = true → s ∉ ss → i.isNewer s timestamp = true) :
    i.replace ss timestamp = (i.withoutRemains, []) := by
  have hset : i.withoutRemains.setAll false timestamp (i.gone ss) = (i.withoutRemains, []) := by
    refine setAll_of_passed fun s hs ↦ ?_
    obtain ⟨henabled, hnot⟩ := mem_gone.mp hs
    obtain ⟨status, hstatus, hnewer⟩ := (Option.any_eq_true ..).mp (hkept s henabled hnot)
    exact ⟨status, by rw [find?_withoutRemains, if_pos henabled, hstatus], Or.inl hnewer⟩
  have hknown : ∀ s ∈ ss, i.withoutRemains.statuses.contains s = true := fun s hs ↦
    Table.mem_keys_iff.mp (mem_keys_withoutRemains.mpr (hlisted s hs))
  refine Prod.ext ?_ ?_
  · rw [replace_fst, hset, enableNew_of_known hknown]
  · rw [replace_snd, hset, enableNew_of_known hknown]
    rfl

/-- **To replace the set by the same a second time** only clears the remains of the first. -/
theorem replace_replace (i : Interests) (ss : List Subscription) (timestamp : Option Instant) :
    (i.replace ss timestamp).1.replace ss timestamp =
      ((i.replace ss timestamp).1.withoutRemains, []) := by
  refine replace_of_same (fun s hs ↦ ?_) fun s henabled hnot ↦ ?_
  · rw [isEnabled_replace]
    simp [hs]
  · rw [isEnabled_replace] at henabled
    obtain ⟨hbefore, hnewer⟩ : i.isEnabled s = true ∧ i.isNewer s timestamp = true := by
      simpa [hnot] using henabled
    rw [isNewer, find?_replace, if_pos hbefore, if_neg hnot, Option.any_some,
      Status.isStale_announced]
    exact hnewer

end Interests

end Directory

end ServiceBus
