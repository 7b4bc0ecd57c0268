import ServiceBus.Proofs.Directory.Chronicle

/-!
# What the changes tell of the interests

Each operation on the interests of a peer gives, beside the new interests, the changes that were
accepted.  `Interests.Describes` says that they tell the whole story: a subscription is enabled
afterwards if the last change of it says so, and it is as it was if none is of it.

There is one lemma per operation, and `Describes.trans` puts operations one after the other.
-/

set_option autoImplicit false

namespace ServiceBus.Directory.Interests

/-- The changes tell what became of each subscription. -/
def Describes (i : Interests) (cs : List Change) (i' : Interests) : Prop :=
  ∀ s, i'.isEnabled s = (lastOf cs (fun s' ↦ s' = s)).getD (i.isEnabled s)

namespace Describes

theorem refl (i : Interests) : Describes i [] i := fun _ ↦ rfl

theorem trans {i i' i'' : Interests} {cs cs' : List Change} (h : Describes i cs i')
    (h' : Describes i' cs' i'') : Describes i (cs ++ cs') i'' := by
  intro s
  rw [h' s, h s, lastOf_append]
  cases lastOf cs' (fun s' ↦ s' = s) <;> rfl

end Describes

@[simp]
theorem isEnabled_empty (s : Subscription) : empty.isEnabled s = false := rfl

/-! ## One subscription -/

theorem isEnabled_insert (i : Interests) (s s' : Subscription) (status : Status) :
    isEnabled ⟨i.statuses.insert s status⟩ s' =
      if s' = s then status.enabled else i.isEnabled s' := by
  simp only [isEnabled, Table.find?_insert]
  split <;> rfl

theorem describes_set (i : Interests) (s : Subscription) (enabled : Bool)
    (timestamp : Option Instant) :
    Describes i (i.set s enabled timestamp).2 (i.set s enabled timestamp).1 := by
  intro s'
  rw [set]
  cases hfind : i.statuses.find? s with
  | some status =>
    dsimp only
    split
    · rfl
    · rw [isEnabled_insert, lastOf_singleton]
      by_cases h : s' = s
      · simp [h]
      · simp [h, Ne.symm h]
  | none =>
    -- what was never announced is not enabled, so to disable it changes nothing
    have hs : i.isEnabled s = false := by simp [isEnabled, hfind]
    cases enabled with
    | true =>
      simp only [isEnabled_insert, if_true, lastOf_singleton]
      by_cases h : s' = s
      · simp [h]
      · simp [h, Ne.symm h]
    | false =>
      simp only [isEnabled_insert, Bool.false_eq_true, if_false, lastOf_nil, Option.getD_none]
      split
      · next h => rw [h, hs]
      · rfl

/-! ## Several subscriptions -/

theorem describes_setAll (enabled : Bool) (timestamp : Option Instant) (i : Interests)
    (ss : List Subscription) :
    Describes i (i.setAll enabled timestamp ss).2 (i.setAll enabled timestamp ss).1 := by
  induction ss generalizing i with
  | nil => exact .refl i
  | cons s ss ih => exact (describes_set i s enabled timestamp).trans (ih _)

theorem describes_enableNew (timestamp : Option Instant) (i : Interests)
    (ss : List Subscription) :
    Describes i (i.enableNew timestamp ss).2 (i.enableNew timestamp ss).1 := by
  induction ss generalizing i with
  | nil => exact .refl i
  | cons s ss ih =>
    rw [enableNew]
    split
    · exact ih i
    · exact (describes_set i s true timestamp).trans (ih _)

theorem isEnabled_withoutRemains (i : Interests) (s : Subscription) :
    i.withoutRemains.isEnabled s = i.isEnabled s := by
  rw [isEnabled, isEnabled, withoutRemains, Table.find?_filter]
  cases h : i.statuses.find? s with
  | none => rfl
  | some status => cases henabled : status.enabled <;> simp [Option.filter_some, henabled]

/-- To forget what was given up changes nothing that an index follows. -/
theorem describes_withoutRemains (i : Interests) : Describes i [] i.withoutRemains :=
  isEnabled_withoutRemains i

/-- What is left without the remains is what is enabled. -/
theorem mem_keys_withoutRemains {i : Interests} {s : Subscription} :
    s ∈ i.withoutRemains.statuses.keys ↔ i.isEnabled s := by
  rw [Table.mem_keys_iff, withoutRemains, Table.find?_filter, isEnabled]
  cases h : i.statuses.find? s with
  | none => simp
  | some status => cases henabled : status.enabled <;> simp [Option.filter_some, henabled]

theorem mem_enabled {i : Interests} {s : Subscription} : s ∈ i.enabled ↔ i.isEnabled s := by
  rw [enabled, List.mem_mergeSort, mem_keys_withoutRemains]

/-! ## Whole sets -/

theorem describes_replace (i : Interests) (ss : List Subscription) (timestamp : Option Instant) :
    Describes i (i.replace ss timestamp).2 (i.replace ss timestamp).1 :=
  (describes_withoutRemains i).trans
    ((describes_setAll false timestamp _ _).trans (describes_enableNew timestamp _ ss))

theorem describes_replaceType (i : Interests) (interest : TypeInterest)
    (timestamp : Option Instant) :
    Describes i (i.replaceType interest timestamp).2 (i.replaceType interest timestamp).1 :=
  (describes_setAll false timestamp i _).trans (describes_setAll true timestamp _ _)

theorem describes_replaceTypes (timestamp : Option Instant) (i : Interests)
    (interests : List TypeInterest) :
    Describes i (i.replaceTypes timestamp interests).2 (i.replaceTypes timestamp interests).1 := by
  induction interests generalizing i with
  | nil => exact .refl i
  | cons interest rest ih => exact (describes_replaceType i interest timestamp).trans (ih _)

/-- When a peer goes, nothing that it asked for is left. -/
theorem describes_withdrawal (i : Interests) : Describes i i.withdrawal empty := by
  intro s
  rw [isEnabled_empty]
  cases hlast : lastOf i.withdrawal (fun s' ↦ s' = s) with
  | none =>
    cases henabled : i.isEnabled s with
    | false => rfl
    | true =>
      have hmem : (⟨s, false⟩ : Change) ∈ i.withdrawal :=
        List.mem_map_of_mem (mem_keys_withoutRemains.mpr henabled)
      simpa using lastOf_eq_none_iff.mp hlast _ hmem
  | some enabled =>
    obtain ⟨before, c, after, hcs, -, rfl, -⟩ := lastOf_eq_some_iff.mp hlast
    have hmem : c ∈ i.withdrawal := by rw [hcs]; simp
    obtain ⟨s', -, rfl⟩ := List.mem_map.mp hmem
    rfl

end ServiceBus.Directory.Interests
