/-!
# Finite tables

A table holds at most one value per key.  It is a list of pairs in the order in which the keys
first came in, and the absence of a second pair with the same key is part of the type, so that the
number of pairs is the number of keys.

Everything a table does is said through `Table.find?`: what an operation leaves under each key is
one lemma, and nothing later unfolds the list.
-/

set_option autoImplicit false

namespace ServiceBus

/-- A finite map, kept as a list of pairs in order of first insertion. -/
structure Table (κ ν : Type) where
  /-- The pairs, oldest key first. -/
  entries : List (κ × ν) := []
  /-- No key occurs twice. -/
  nodup_keys : (entries.map Prod.fst).Nodup := by simp

namespace Table

variable {κ ν : Type}

/-- The table without any key. -/
def empty : Table κ ν := {}

instance : Inhabited (Table κ ν) := ⟨empty⟩

/-- The keys, oldest first. -/
def keys (t : Table κ ν) : List κ := t.entries.map Prod.fst

/-- The values, in the order of their keys. -/
def values (t : Table κ ν) : List ν := t.entries.map Prod.snd

/-- The number of keys. -/
def size (t : Table κ ν) : Nat := t.entries.length

/-- Keeps the pairs that pass the test. -/
def filter (t : Table κ ν) (p : κ → ν → Bool) : Table κ ν where
  entries := t.entries.filter fun e ↦ p e.1 e.2
  nodup_keys := t.nodup_keys.sublist (List.filter_sublist.map Prod.fst)

/-- Changes every value, each with its key at hand. -/
def mapValues {ν' : Type} (f : κ → ν → ν') (t : Table κ ν) : Table κ ν' where
  entries := t.entries.map fun e ↦ (e.1, f e.1 e.2)
  nodup_keys := by
    rw [List.map_map]
    exact t.nodup_keys

variable [DecidableEq κ]

/-- The value under a key. -/
def find? (t : Table κ ν) (k : κ) : Option ν :=
  (t.entries.find? fun e ↦ e.1 = k).map Prod.snd

/-- Whether a key has a value. -/
def contains (t : Table κ ν) (k : κ) : Bool := (t.find? k).isSome

/-- Takes a key out. -/
def erase (t : Table κ ν) (k : κ) : Table κ ν := t.filter fun k' _ ↦ k' ≠ k

/-- Changes the value under one key, if it has one. -/
def modify (t : Table κ ν) (k : κ) (f : ν → ν) : Table κ ν :=
  t.mapValues fun k' v ↦ if k' = k then f v else v

theorem find?_eq_none_iff {t : Table κ ν} {k : κ} : t.find? k = none ↔ k ∉ t.keys := by
  simp only [find?, keys, Option.map_eq_none_iff, List.find?_eq_none, decide_eq_true_eq,
    List.mem_map, not_exists, not_and]

/-- Sets the value under a key: a known key keeps its place, a new one goes to the end. -/
def insert (t : Table κ ν) (k : κ) (v : ν) : Table κ ν :=
  if h : t.contains k then t.modify k fun _ ↦ v
  else
    { entries := t.entries ++ [(k, v)]
      nodup_keys := by
        have hk : k ∉ t.entries.map Prod.fst := by
          have hn : t.find? k = none := by simpa [contains] using h
          exact find?_eq_none_iff.mp hn
        rw [List.map_append, List.nodup_append]
        exact ⟨t.nodup_keys, by simp, fun a ha b hb hab ↦ hk (by simp_all)⟩ }

/-! ## What each operation leaves under a key -/

@[simp]
theorem find?_empty (k : κ) : (empty : Table κ ν).find? k = none := rfl

theorem find?_filter (t : Table κ ν) (p : κ → ν → Bool) (k : κ) :
    (t.filter p).find? k = (t.find? k).filter (p k) := by
  obtain ⟨l, hl⟩ := t
  simp only [find?, filter]
  induction l with
  | nil => rfl
  | cons e rest ih =>
    obtain ⟨he, hrest⟩ := List.nodup_cons.mp hl
    by_cases hk : e.1 = k
    · subst hk
      -- no later pair has the key
      have hnone : (rest.find? fun e' ↦ decide (e'.1 = e.1)) = none := by
        simp only [List.find?_eq_none, decide_eq_true_eq]
        exact fun e' he' hkey ↦ he (hkey ▸ List.mem_map_of_mem he')
      have ih := ih hrest
      rw [hnone] at ih
      by_cases hp : p e.1 e.2
      · simp [hp, Option.filter_some]
      · simp only [List.filter_cons, hp, Bool.false_eq_true, if_false, ih]
        simp [Option.filter_some, hp]
    · by_cases hp : p e.1 e.2
      · simpa [hk, hp] using ih hrest
      · simpa [hk, hp] using ih hrest

theorem find?_erase (t : Table κ ν) (k k' : κ) :
    (t.erase k').find? k = if k = k' then none else t.find? k := by
  rw [erase, find?_filter]
  split
  · next h => cases t.find? k <;> simp [h]
  · next h => cases t.find? k <;> simp [h]

theorem find?_modify (t : Table κ ν) (k k' : κ) (f : ν → ν) :
    (t.modify k' f).find? k = if k = k' then (t.find? k).map f else t.find? k := by
  obtain ⟨l, hl⟩ := t
  simp only [find?, modify, mapValues]
  clear hl
  induction l with
  | nil => simp
  | cons e rest ih => grind

theorem find?_insert (t : Table κ ν) (k k' : κ) (v : ν) :
    (t.insert k' v).find? k = if k = k' then some v else t.find? k := by
  by_cases h : t.contains k'
  · rw [insert, dif_pos h, find?_modify]
    split
    · subst k
      obtain ⟨w, hw⟩ := Option.isSome_iff_exists.mp h
      simp [hw]
    · rfl
  · have hn : (t.entries.find? fun e ↦ decide (e.1 = k')) = none := by
      have hn : t.find? k' = none := by simpa [contains] using h
      exact Option.map_eq_none_iff.mp hn
    rw [insert, dif_neg h]
    simp only [find?, List.find?_append]
    split
    · subst k
      simp [hn]
    · next hk =>
      have hk' : ¬ k' = k := fun e ↦ hk e.symm
      cases t.entries.find? fun e ↦ decide (e.1 = k) <;> simp [hk']

theorem mem_keys_iff {t : Table κ ν} {k : κ} : k ∈ t.keys ↔ (t.find? k).isSome := by
  rw [Option.isSome_iff_ne_none, ne_eq, find?_eq_none_iff, Decidable.not_not]

/-- A pair is the only one with its key. -/
theorem find?_of_mem_entries {t : Table κ ν} {e : κ × ν} (h : e ∈ t.entries) :
    t.find? e.1 = some e.2 := by
  obtain ⟨l, hl⟩ := t
  dsimp only [find?] at h ⊢
  induction l with
  | nil => cases h
  | cons first rest ih =>
    obtain ⟨hfirst, hrest⟩ := List.nodup_cons.mp hl
    rcases List.mem_cons.mp h with rfl | h
    · simp
    · have hkey : first.1 ≠ e.1 := fun hkey ↦ hfirst (hkey ▸ List.mem_map_of_mem h)
      rw [List.find?_cons_of_neg (by simpa using hkey)]
      exact ih hrest h

/-- A value is under some key. -/
theorem exists_find?_of_mem_values {t : Table κ ν} {v : ν} (h : v ∈ t.values) :
    ∃ k, t.find? k = some v := by
  obtain ⟨e, he, rfl⟩ := List.mem_map.mp h
  exact ⟨e.1, find?_of_mem_entries he⟩

/-- To set the value that is there changes nothing. -/
theorem insert_of_find? {t : Table κ ν} {k : κ} {v : ν} (h : t.find? k = some v) :
    t.insert k v = t := by
  have hcontains : t.contains k := Option.isSome_iff_exists.mpr ⟨v, h⟩
  have hentries : t.entries.map (fun e ↦ (e.1, if e.1 = k then v else e.2)) = t.entries := by
    refine Eq.trans (List.map_congr_left (g := id) fun e he ↦ ?_) (List.map_id t.entries)
    split
    · next hkey =>
      have hvalue : some v = some e.2 := by rw [← h, ← hkey, find?_of_mem_entries he]
      rw [Option.some.inj hvalue]
      rfl
    · rfl
  rw [insert, dif_pos hcontains]
  obtain ⟨l, hl⟩ := t
  simpa [modify, mapValues] using hentries

/-- A table without values is the empty one. -/
theorem eq_empty_of_find? {t : Table κ ν} (h : ∀ k, t.find? k = none) : t = empty := by
  obtain ⟨_ | ⟨e, rest⟩, hl⟩ := t
  · rfl
  · simpa [find?] using h e.1

end Table

end ServiceBus
