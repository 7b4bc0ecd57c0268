import ServiceBus.Proofs.Directory.Acceptance

/-!
# Replacing the same types twice

An event can replace the subscriptions to several types, one type after the other, and the same type
may come up more than once.  To do all of it again changes no status
(`Interests.find?_replaceTypes_again`).  It can give changes again, when a type comes up twice with
different subscriptions; but in the end these changes say of each kind of subscription what those of
the first time said (`Interests.lastOf_replaceTypes_again`), so the index does not notice.

For the second part two runs are compared: once a type is replaced, all that was different between
them in that type is gone, as far as it matters for what comes after (`Interests.AgreeOn`).
-/

set_option autoImplicit false

namespace ServiceBus.Directory

namespace Interests

variable {type : MessageType} {timestamp : Option Instant} {i j : Interests}

/-- To replace types acts on the status of each subscription by itself. -/
theorem find?_replaceTypes_congr {s : Subscription}
    (h : i.statuses.find? s = j.statuses.find? s) (interests : List TypeInterest) :
    (i.replaceTypes timestamp interests).1.statuses.find? s =
      (j.replaceTypes timestamp interests).1.statuses.find? s := by
  induction interests generalizing i j with
  | nil => exact h
  | cons interest rest ih =>
    refine ih (i := (i.replaceType interest timestamp).1)
      (j := (j.replaceType interest timestamp).1) ?_
    have hbut : s ∈ i.enabledBut interest.type interest.subscriptions ↔
        s ∈ j.enabledBut interest.type interest.subscriptions := by
      rw [mem_enabledBut, mem_enabledBut, isEnabled, isEnabled, h]
    rw [replaceType, replaceType, find?_setAll, find?_setAll, find?_setAll, find?_setAll, h]
    simp only [hbut]

/-- To replace the same types a second time changes no flag. -/
theorem isEnabled_replaceTypes_again (i : Interests) (timestamp : Option Instant)
    (interests : List TypeInterest) (s : Subscription) :
    ((i.replaceTypes timestamp interests).1.replaceTypes timestamp interests).1.isEnabled s =
      (i.replaceTypes timestamp interests).1.isEnabled s := by
  rw [isEnabled_replaceTypes, isNewer_replaceTypes, isEnabled_replaceTypes]
  cases i.isNewer s timestamp <;> cases TypeInterest.says? interests s <;> rfl

/-- To replace the same types a second time changes no status. -/
theorem find?_replaceTypes_again (i : Interests) (timestamp : Option Instant)
    (interests : List TypeInterest) (s : Subscription) :
    ((i.replaceTypes timestamp interests).1.replaceTypes timestamp interests).1.statuses.find? s =
      (i.replaceTypes timestamp interests).1.statuses.find? s := by
  obtain hkept | ⟨enabled, hnow⟩ := (i.reaches_replaceTypes timestamp interests s).eq_or_eq_some
  · exact find?_replaceTypes_congr hkept interests
  · -- the status has the time of the replacement, so only its flag could change
    have hagain := (i.replaceTypes timestamp interests).1.reaches_replaceTypes timestamp interests s
    obtain hkept | ⟨enabled', hnow'⟩ := hagain.eq_or_eq_some
    · exact hkept
    · have hflag := i.isEnabled_replaceTypes_again timestamp interests s
      rw [isEnabled, isEnabled, hnow, hnow'] at hflag
      have hflag : enabled' = enabled := by simpa using hflag
      rw [hnow, hnow', hflag]

/-- Both sides know the same of the subscriptions to a type, as far as it matters as of a time. -/
def AgreeOn (type : MessageType) (timestamp : Option Instant) (i j : Interests) : Prop :=
  ∀ s, s.type = type → i.isEnabled s = j.isEnabled s ∧ i.isNewer s timestamp = j.isNewer s timestamp

theorem AgreeOn.setAll (h : AgreeOn type timestamp i j) (enabled : Bool)
    {ss ss' : List Subscription} (hss : ∀ s, s.type = type → (s ∈ ss ↔ s ∈ ss')) :
    AgreeOn type timestamp (i.setAll enabled timestamp ss).1
      (j.setAll enabled timestamp ss').1 := by
  intro s hs
  obtain ⟨henabled, hnewer⟩ := h s hs
  rw [isEnabled_setAll, isEnabled_setAll, isNewer_setAll, isNewer_setAll, henabled, hnewer]
  simp only [hss s hs, true_and]

theorem AgreeOn.lastOf_setAll (h : AgreeOn type timestamp i j) (enabled : Bool)
    {ss ss' : List Subscription} (hss : ∀ s, s.type = type → (s ∈ ss ↔ s ∈ ss'))
    {kind : Subscription → Bool} (hkind : ∀ s, kind s = true → s.type = type) :
    lastOf (i.setAll enabled timestamp ss).2 kind =
      lastOf (j.setAll enabled timestamp ss').2 kind := by
  refine Option.ext fun enabled' ↦ ?_
  rw [lastOf_setAll_eq_some_iff, lastOf_setAll_eq_some_iff]
  refine and_congr_right fun _ ↦ exists_congr fun s ↦ and_congr_right fun hs ↦ ?_
  obtain ⟨henabled, hnewer⟩ := h s (hkind s hs)
  rw [hss s (hkind s hs), henabled, hnewer]

theorem AgreeOn.replaceTypes (h : AgreeOn type timestamp i j) (interests : List TypeInterest)
    {kind : Subscription → Bool} (hkind : ∀ s, kind s = true → s.type = type) :
    lastOf (i.replaceTypes timestamp interests).2 kind =
      lastOf (j.replaceTypes timestamp interests).2 kind := by
  induction interests generalizing i j with
  | nil => rfl
  | cons interest rest ih =>
    have hbut : ∀ s, s.type = type → (s ∈ i.enabledBut interest.type interest.subscriptions ↔
        s ∈ j.enabledBut interest.type interest.subscriptions) := fun s hs ↦ by
      rw [mem_enabledBut, mem_enabledBut, (h s hs).1]
    have hgone := h.setAll false hbut
    have hcome := hgone.setAll true fun s _ ↦ Iff.rfl (a := s ∈ interest.subscriptions)
    rw [Interests.replaceTypes, Interests.replaceTypes]
    dsimp only [replaceType]
    rw [lastOf_append, lastOf_append, lastOf_append, lastOf_append, ih hcome,
      h.lastOf_setAll false hbut hkind, hgone.lastOf_setAll true (fun _ _ ↦ Iff.rfl) hkind]

/-- Once a type is replaced, both sides agree on it. -/
theorem agreeOn_replaceType {interest : TypeInterest}
    (h : ∀ s, s.type = interest.type → i.isNewer s timestamp = j.isNewer s timestamp)
    (hflags : ∀ s, s.type = interest.type → i.isNewer s timestamp = true →
      i.isEnabled s = j.isEnabled s) :
    AgreeOn interest.type timestamp (i.replaceType interest timestamp).1
      (j.replaceType interest timestamp).1 := by
  intro s hs
  rw [isEnabled_replaceType, isEnabled_replaceType, isNewer_replaceType, isNewer_replaceType,
    ← h s hs]
  cases hnewer : i.isNewer s timestamp with
  | false => simp [hs]
  | true => simp [hflags s hs hnewer]

/-- The changes of some type that a second replacement brings come to nothing, or to the same as
those of the first: where the second begins with the flags that the first ended with, the two agree
from the first replacement of the type on. -/
theorem lastOf_replaceTypes_of_flags (type : MessageType) {interests : List TypeInterest}
    {kind : Subscription → Bool} (hkind : ∀ s, kind s = true → s.type = type)
    (hnewer : ∀ s, s.type = type → i.isNewer s timestamp = j.isNewer s timestamp)
    (hflags : ∀ s, s.type = type →
      j.isEnabled s = (i.replaceTypes timestamp interests).1.isEnabled s) :
    lastOf (j.replaceTypes timestamp interests).2 kind = none ∨
      lastOf (j.replaceTypes timestamp interests).2 kind =
        lastOf (i.replaceTypes timestamp interests).2 kind := by
  induction interests generalizing i j with
  | nil => exact Or.inl rfl
  | cons interest rest ih =>
    have hsplit : ∀ k : Interests, lastOf (k.replaceTypes timestamp (interest :: rest)).2 kind =
        (lastOf ((k.replaceType interest timestamp).1.replaceTypes timestamp rest).2 kind).or
          (lastOf (k.replaceType interest timestamp).2 kind) :=
      fun k ↦ lastOf_append (k.replaceType interest timestamp).2 _ kind
    rw [hsplit, hsplit]
    by_cases htype : interest.type = type
    · subst htype
      have hsame : ∀ s, s.type = interest.type → i.isNewer s timestamp = true →
          i.isEnabled s = j.isEnabled s := fun s hs hn ↦ by
        rw [hflags s hs, isEnabled_replaceTypes, if_pos hn]
      have hagree := agreeOn_replaceType hnewer hsame
      rw [← hagree.replaceTypes rest hkind]
      cases hrest : lastOf ((i.replaceType interest timestamp).1.replaceTypes timestamp rest).2
          kind with
      | some enabled => exact Or.inr rfl
      | none =>
        -- no flag of the kind changes any more, so the first replacement of the type finds them all
        -- as it leaves them
        refine Or.inl ?_
        rw [Option.none_or, lastOf_eq_none_iff]
        intro c hc hck
        have hs := hkind _ hck
        have hlast : lastOf ((i.replaceType interest timestamp).1.replaceTypes timestamp rest).2
            (fun s' ↦ s' = c.subscription) = none := by
          refine lastOf_eq_none_iff.mpr fun c' hc' hsub ↦ ?_
          have hsub : c'.subscription = c.subscription := by simpa using hsub
          exact lastOf_eq_none_iff.mp hrest c' hc' (hsub ▸ hck)
        have hend := describes_replaceTypes timestamp (i.replaceType interest timestamp).1 rest
          c.subscription
        rw [hlast, Option.getD_none, (hagree _ hs).1] at hend
        exact isEnabled_ne_of_mem_replaceType hc (hend.symm.trans (hflags _ hs).symm)
    · have hnone : ∀ k : Interests, lastOf (k.replaceType interest timestamp).2 kind = none := by
        refine fun k ↦ lastOf_eq_none_iff.mpr fun c hc hck ↦ htype ?_
        rw [← type_of_mem_replaceType hc, hkind _ hck]
      have hother : ∀ s : Subscription, s.type = type → s.type ≠ interest.type :=
        fun s hs hs' ↦ htype (hs'.symm.trans hs)
      rw [hnone, hnone, Option.or_none, Option.or_none]
      refine ih (fun s hs ↦ ?_) fun s hs ↦ ?_
      · rw [isNewer_replaceType, isNewer_replaceType, hnewer s hs]
      · rw [isEnabled_replaceType, if_neg fun h ↦ hother s hs h.1, hflags s hs]
        rfl

theorem lastOf_replaceTypes_again (i : Interests) (timestamp : Option Instant)
    (interests : List TypeInterest) (s : Subscription) :
    lastOf ((i.replaceTypes timestamp interests).1.replaceTypes timestamp interests).2
        (fun s' ↦ s'.Alike s) = none ∨
      lastOf ((i.replaceTypes timestamp interests).1.replaceTypes timestamp interests).2
          (fun s' ↦ s'.Alike s) =
        lastOf (i.replaceTypes timestamp interests).2 (fun s' ↦ s'.Alike s) :=
  lastOf_replaceTypes_of_flags s.type (fun _ h ↦ (of_decide_eq_true h).1)
    (fun s' _ ↦ (i.isNewer_replaceTypes timestamp interests s').symm) fun _ _ ↦ rfl

end Interests

end ServiceBus.Directory
