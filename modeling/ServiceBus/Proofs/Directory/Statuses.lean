import ServiceBus.Directory.Interests

/-!
# How the status of a subscription goes on

Whatever is done to the interests of a peer, one subscription of it hears *announcements*: that it
is enabled or disabled as of some time.  `Status.announced` is what one announcement makes of a
status.  It passes over what is older than the status, and what says the same as the status; then
the status keeps the timestamp that it had.

`Status.Reaches` says that one status comes of another by announcements of one time, and there is
one lemma per operation on interests.  Only a replacement does more: first of all it forgets what
was given up, so what it starts from is the status without remains.
-/

set_option autoImplicit false

namespace ServiceBus.Directory

namespace Status

/-- The status of a subscription after an announcement of it, given the status before, if there was
one. -/
def announced (known : Option Status) (enabled : Bool) (timestamp : Option Instant) : Status :=
  match known with
  | some status =>
    if Instant.isStale status.timestamp timestamp ∨ status.enabled = enabled then status
    else ⟨enabled, timestamp⟩
  | none => ⟨enabled, timestamp⟩

@[simp]
theorem announced_none (enabled : Bool) (timestamp : Option Instant) :
    announced none enabled timestamp = ⟨enabled, timestamp⟩ := rfl

/-- What says nothing new is passed over. -/
theorem announced_of_same {status : Status} {enabled : Bool} (h : status.enabled = enabled)
    (timestamp : Option Instant) : announced (some status) enabled timestamp = status :=
  if_pos (Or.inr h)

/-- What is older is passed over. -/
theorem announced_of_stale {status : Status} {timestamp : Option Instant}
    (h : Instant.isStale status.timestamp timestamp) (enabled : Bool) :
    announced (some status) enabled timestamp = status :=
  if_pos (Or.inl h)

theorem announced_of_fresh {status : Status} {enabled : Bool} {timestamp : Option Instant}
    (hstale : Instant.isStale status.timestamp timestamp = false) (h : status.enabled ≠ enabled) :
    announced (some status) enabled timestamp = ⟨enabled, timestamp⟩ :=
  if_neg (by simp [hstale, h])

/-- An announcement is taken as it is, or passed over. -/
theorem announced_eq_or (known : Option Status) (enabled : Bool) (timestamp : Option Instant) :
    announced known enabled timestamp = ⟨enabled, timestamp⟩ ∨
      known = some (announced known enabled timestamp) := by
  cases known with
  | none => exact Or.inl rfl
  | some status =>
    rw [announced]
    split
    · exact Or.inr rfl
    · exact Or.inl rfl

/-- To announce the same a second time changes nothing. -/
@[simp]
theorem announced_announced (known : Option Status) (enabled : Bool)
    (timestamp : Option Instant) :
    announced (some (announced known enabled timestamp)) enabled timestamp =
      announced known enabled timestamp := by
  obtain h | h := announced_eq_or known enabled timestamp
  · rw [h]
    exact announced_of_same rfl timestamp
  · rw [← h]

/-! ## Announcements of one time -/

/-- One status comes of another by announcements of one time. -/
inductive Reaches (timestamp : Option Instant) : Option Status → Option Status → Prop
  | refl (known : Option Status) : Reaches timestamp known known
  | tail {known known' : Option Status} (h : Reaches timestamp known known') (enabled : Bool) :
      Reaches timestamp known (some (announced known' enabled timestamp))

namespace Reaches

variable {timestamp : Option Instant} {known known' known'' : Option Status}

theorem single (timestamp : Option Instant) (known : Option Status) (enabled : Bool) :
    Reaches timestamp known (some (announced known enabled timestamp)) :=
  (refl known).tail enabled

theorem trans (h : Reaches timestamp known known') (h' : Reaches timestamp known' known'') :
    Reaches timestamp known known'' := by
  induction h' with
  | refl => exact h
  | tail _ enabled ih => exact ih.tail enabled

/-- A status that comes of another in this way is the same, or it has the time of the
announcements. -/
theorem eq_or_eq_some (h : Reaches timestamp known known') :
    known' = known ∨ ∃ enabled, known' = some ⟨enabled, timestamp⟩ := by
  induction h with
  | refl => exact Or.inl rfl
  | @tail known'' _ enabled ih =>
    obtain h | h := announced_eq_or known'' enabled timestamp
    · exact Or.inr ⟨enabled, by rw [h]⟩
    · rwa [← h]

/-- Announcements of a time change nothing about what is newer. -/
theorem eq_of_stale {status : Status} (h : Reaches timestamp (some status) known')
    (hstale : Instant.isStale status.timestamp timestamp) : known' = some status := by
  induction h with
  | refl => rfl
  | tail _ enabled ih => rw [ih, announced_of_stale hstale]

end Reaches

end Status

namespace Interests

open Status (announced Reaches)

/-! ## What each operation does to one status -/

theorem find?_set (i : Interests) (s s' : Subscription) (enabled : Bool)
    (timestamp : Option Instant) :
    (i.set s enabled timestamp).1.statuses.find? s' =
      if s' = s then some (announced (i.statuses.find? s') enabled timestamp)
      else i.statuses.find? s' := by
  rw [set]
  by_cases hs : s' = s
  · subst hs
    rw [if_pos rfl]
    cases hfind : i.statuses.find? s' with
    | none => simp [Table.find?_insert]
    | some status =>
      dsimp only
      rw [announced]
      split
      · exact hfind
      · simp [Table.find?_insert]
  · rw [if_neg hs]
    cases i.statuses.find? s with
    | none => simp [Table.find?_insert, hs]
    | some status =>
      dsimp only
      split
      · rfl
      · simp [Table.find?_insert, hs]

/-- However often a subscription is named, it hears one announcement. -/
theorem find?_setAll (enabled : Bool) (timestamp : Option Instant) (i : Interests)
    (ss : List Subscription) (s : Subscription) :
    (i.setAll enabled timestamp ss).1.statuses.find? s =
      if s ∈ ss then some (announced (i.statuses.find? s) enabled timestamp)
      else i.statuses.find? s := by
  induction ss generalizing i with
  | nil => rfl
  | cons s' ss ih =>
    refine (ih (i.set s' enabled timestamp).1).trans ?_
    rw [find?_set]
    by_cases hs : s = s'
    · simp [hs]
    · simp [hs]

theorem reaches_set (i : Interests) (s s' : Subscription) (enabled : Bool)
    (timestamp : Option Instant) :
    Reaches timestamp (i.statuses.find? s')
      ((i.set s enabled timestamp).1.statuses.find? s') := by
  rw [find?_set]
  split
  · exact .single timestamp _ enabled
  · exact .refl _

theorem reaches_setAll (enabled : Bool) (timestamp : Option Instant) (i : Interests)
    (ss : List Subscription) (s : Subscription) :
    Reaches timestamp (i.statuses.find? s)
      ((i.setAll enabled timestamp ss).1.statuses.find? s) := by
  rw [find?_setAll]
  split
  · exact .single timestamp _ enabled
  · exact .refl _

theorem reaches_enableNew (timestamp : Option Instant) (i : Interests) (ss : List Subscription)
    (s : Subscription) :
    Reaches timestamp (i.statuses.find? s) ((i.enableNew timestamp ss).1.statuses.find? s) := by
  induction ss generalizing i with
  | nil => exact .refl _
  | cons s' ss ih =>
    rw [enableNew]
    split
    · exact ih i
    · exact (reaches_set i s' s true timestamp).trans (ih _)

theorem reaches_replaceType (i : Interests) (interest : TypeInterest)
    (timestamp : Option Instant) (s : Subscription) :
    Reaches timestamp (i.statuses.find? s)
      ((i.replaceType interest timestamp).1.statuses.find? s) :=
  (reaches_setAll false timestamp i _ s).trans (reaches_setAll true timestamp _ _ s)

theorem reaches_replaceTypes (timestamp : Option Instant) (i : Interests)
    (interests : List TypeInterest) (s : Subscription) :
    Reaches timestamp (i.statuses.find? s)
      ((i.replaceTypes timestamp interests).1.statuses.find? s) := by
  induction interests generalizing i with
  | nil => exact .refl _
  | cons interest rest ih => exact (reaches_replaceType i interest timestamp s).trans (ih _)

/-- Without the remains only what is enabled has a status. -/
theorem find?_withoutRemains (i : Interests) (s : Subscription) :
    i.withoutRemains.statuses.find? s = if i.isEnabled s then i.statuses.find? s else none := by
  rw [withoutRemains, Table.find?_filter, isEnabled]
  cases i.statuses.find? s with
  | none => rfl
  | some status => cases henabled : status.enabled <;> simp [Option.filter_some, henabled]

/-- A replacement forgets what was given up; then it announces what is new. -/
theorem reaches_replace (i : Interests) (ss : List Subscription) (timestamp : Option Instant)
    (s : Subscription) :
    Reaches timestamp (if i.isEnabled s then i.statuses.find? s else none)
      ((i.replace ss timestamp).1.statuses.find? s) := by
  rw [← find?_withoutRemains]
  exact (reaches_setAll false timestamp _ _ s).trans (reaches_enableNew timestamp _ ss s)

end Interests

end ServiceBus.Directory
