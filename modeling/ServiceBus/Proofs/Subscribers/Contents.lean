import Mathlib.Data.List.Basic
import ServiceBus.Subscribers

/-!
# What the subscribers of a message type contain

A trie is a way to keep a list of *entries*: a pattern in tokens, and a peer that asks by it.
`Trie.entries` is that list, in the order of a walk that goes down before it goes on.  The three
searches are then filters of one list:

* `Trie.all_eq_entries`, `Trie.find_eq_entries` and `Trie.findJoined_eq_entries` say which entries
  each of them lists.  They hold of every trie, and they keep the order.
* `Trie.mem_entries_add` and `Trie.mem_entries_remove` say what filing and taking out do to the
  entries.  They hold of a *tidy* trie, in which no two siblings have one token; every trie that is
  made by filing and taking out is tidy.

`Subscribers.Holds` puts the trie and the list of those who ask for everything together: a peer is
filed under a pattern.  Two patterns are filed as one exactly if they are the same pattern in the
sense of `Key.SamePattern`.
-/

set_option autoImplicit false

namespace ServiceBus

/-! ## Lists of peers without repetition -/

theorem mem_enlist {p q : PeerRef} {l : List PeerRef} :
    q ∈ enlist p l ↔ q ∈ l ∨ (q = p ∧ ∀ r ∈ l, r.id ≠ p.id) := by
  rw [enlist]
  split
  · next h =>
    obtain ⟨r, hr, hid⟩ := List.any_eq_true.mp h
    refine ⟨Or.inl, fun hq ↦ hq.resolve_right fun hp ↦ hp.2 r hr (by simpa using hid)⟩
  · next h =>
    have hl : ∀ r ∈ l, r.id ≠ p.id := by simpa using h
    rw [List.mem_append, List.mem_singleton]
    exact or_congr_right ⟨fun hq ↦ ⟨hq, hl⟩, And.left⟩

theorem mem_delist {p q : PeerRef} {l : List PeerRef} : q ∈ delist p l ↔ q ∈ l ∧ q.id ≠ p.id := by
  simp [delist]

/-- An id is there afterwards if it was there before or is that of the peer. -/
theorem mem_ids_enlist {p : PeerRef} {l : List PeerRef} {id : PeerId} :
    id ∈ (enlist p l).map PeerRef.id ↔ id ∈ l.map PeerRef.id ∨ id = p.id := by
  rw [enlist]
  split
  · next h =>
    obtain ⟨r, hr, hid⟩ := List.any_eq_true.mp h
    have hp : p.id ∈ l.map PeerRef.id := List.mem_map.mpr ⟨r, hr, by simpa using hid⟩
    exact ⟨Or.inl, fun hid ↦ hid.elim (fun hl ↦ hl) fun he ↦ he ▸ hp⟩
  · simp

theorem nodup_ids_enlist {p : PeerRef} {l : List PeerRef} (h : (l.map PeerRef.id).Nodup) :
    ((enlist p l).map PeerRef.id).Nodup := by
  rw [enlist]
  split
  · exact h
  · next hp =>
    have hl : ∀ r ∈ l, r.id ≠ p.id := by simpa using hp
    rw [List.map_append, List.nodup_append]
    refine ⟨h, by simp, ?_⟩
    rintro a ha b hb rfl
    obtain ⟨r, hr, rfl⟩ := List.mem_map.mp ha
    exact hl r hr (by simpa using hb)

-- The induction is on what is left of the list, so the peers kept so far are arbitrary.
private theorem foldl_enlist (l acc : List PeerRef) (h : (acc.map PeerRef.id).Nodup) :
    ((l.foldl (fun acc p ↦ enlist p acc) acc).map PeerRef.id).Nodup ∧
      ∀ id, id ∈ (l.foldl (fun acc p ↦ enlist p acc) acc).map PeerRef.id ↔
        id ∈ acc.map PeerRef.id ∨ id ∈ l.map PeerRef.id := by
  induction l generalizing acc with
  | nil => exact ⟨h, by simp⟩
  | cons p l ih =>
    obtain ⟨hnodup, hmem⟩ := ih (enlist p acc) (nodup_ids_enlist h)
    refine ⟨hnodup, fun id ↦ ?_⟩
    rw [List.foldl_cons, hmem, mem_ids_enlist, List.map_cons, List.mem_cons, or_assoc]

theorem nodup_ids_firstOfEachId (l : List PeerRef) :
    ((firstOfEachId l).map PeerRef.id).Nodup :=
  (foldl_enlist l [] (by simp)).1

theorem mem_ids_firstOfEachId {l : List PeerRef} {id : PeerId} :
    id ∈ (firstOfEachId l).map PeerRef.id ↔ id ∈ l.map PeerRef.id := by
  rw [firstOfEachId, (foldl_enlist l [] (by simp)).2]
  simp

/-- Nobody is made up. -/
theorem mem_of_mem_firstOfEachId {l : List PeerRef} {p : PeerRef} (h : p ∈ firstOfEachId l) :
    p ∈ l := by
  have hfold : ∀ acc : List PeerRef,
      p ∈ l.foldl (fun acc q ↦ enlist q acc) acc → p ∈ acc ∨ p ∈ l := by
    clear h
    induction l with
    | nil => exact fun acc hp ↦ Or.inl hp
    | cons q l ih =>
      intro acc hp
      obtain henlist | hl := ih (enlist q acc) hp
      · obtain hacc | ⟨rfl, -⟩ := mem_enlist.mp henlist
        · exact Or.inl hacc
        · exact Or.inr List.mem_cons_self
      · exact Or.inr (List.mem_cons_of_mem _ hl)
  exact (hfold [] h).resolve_left List.not_mem_nil

namespace Trie

/-! ## The entries of a trie -/

/-- The patterns of a trie, each with the peers that ask by it. -/
def entries : Trie → List (List String × PeerRef)
  | nil => []
  | branch t here below beside =>
    here.map (fun p ↦ ([t], p)) ++ (entries below).map (fun e ↦ (t :: e.1, e.2)) ++ entries beside

@[simp]
theorem entries_nil : nil.entries = [] := rfl

theorem mem_entries_branch {t : String} {here : List PeerRef} {below beside : Trie}
    {path : List String} {p : PeerRef} :
    (path, p) ∈ (branch t here below beside).entries ↔
      (path = [t] ∧ p ∈ here) ∨ (∃ rest, path = t :: rest ∧ (rest, p) ∈ below.entries) ∨
        (path, p) ∈ beside.entries := by
  simp only [entries, List.mem_append, List.mem_map, Prod.mk.injEq, Prod.exists, or_assoc]
  refine or_congr ⟨?_, ?_⟩ (or_congr ⟨?_, ?_⟩ Iff.rfl)
  · rintro ⟨q, hq, rfl, rfl⟩
    exact ⟨rfl, hq⟩
  · rintro ⟨rfl, hp⟩
    exact ⟨p, hp, rfl, rfl⟩
  · rintro ⟨rest, q, hq, rfl, rfl⟩
    exact ⟨rest, rfl, hq⟩
  · rintro ⟨rest, rfl, hp⟩
    exact ⟨rest, p, hp, rfl, rfl⟩

theorem ne_nil_of_mem_entries {t : Trie} {path : List String} {p : PeerRef}
    (h : (path, p) ∈ t.entries) : path ≠ [] := by
  induction t with
  | nil => simp at h
  | branch t here below beside _ ih =>
    rcases mem_entries_branch.mp h with ⟨rfl, -⟩ | ⟨rest, rfl, -⟩ | hb
    · simp
    · simp
    · exact ih hb

/-! ## What the searches list -/

theorem all_eq_entries (t : Trie) : t.all = t.entries.map Prod.snd := by
  induction t with
  | nil => rfl
  | branch t here below beside ihb ihs =>
    simp [all, entries, ihb, ihs, Function.comp_def]

/-- No pattern of a trie is without tokens. -/
theorem filter_isEmpty_entries (t : Trie) : (t.entries.filter fun e ↦ e.1.isEmpty) = [] := by
  refine List.filter_eq_nil_iff.mpr ?_
  rintro ⟨path, p⟩ he
  rw [List.isEmpty_iff]
  exact ne_nil_of_mem_entries he

/-- A walk by tokens lists the peers behind the patterns that accept the tokens. -/
theorem find_eq_entries (t : Trie) (tokens : List String) :
    t.find tokens = (t.entries.filter fun e ↦ Key.acceptsParts e.1 tokens).map Prod.snd := by
  induction t generalizing tokens with
  | nil => cases tokens <;> rfl
  | branch t here below beside ihb ihs =>
    cases tokens with
    | nil =>
      have hnone := filter_isEmpty_entries (branch t here below beside)
      simp [find, Key.acceptsParts, hnone]
    | cons token tokens =>
      simp only [find, entries, List.filter_append, List.map_append, ← ihs, List.filter_map,
        List.map_map]
      congr 1
      by_cases hsharp : t = Key.sharp
      · simp [hsharp, Function.comp_def, Key.acceptsParts, all_eq_entries, List.filter_true]
      · by_cases hstep : t = Key.star ∨ t = token
        · cases tokens with
          | nil =>
            have hnone := filter_isEmpty_entries below
            simp [hsharp, hstep, Function.comp_def, Key.acceptsParts, hnone, List.filter_true]
          | cons token' tokens =>
            simp [hsharp, hstep, Function.comp_def, Key.acceptsParts, ihb]
        · simp [hsharp, hstep, Function.comp_def, Key.acceptsParts]

/-- A walk that puts the patterns together lists the peers behind those that accept the key. -/
theorem findJoined_eq_entries (key : Key) (t : Trie) (above : List String) :
    t.findJoined key above =
      (t.entries.filter fun e ↦ Key.accepts ⟨above ++ e.1, false⟩ key).map Prod.snd := by
  induction t generalizing above with
  | nil => rfl
  | branch t here below beside ihb ihs =>
    simp only [findJoined, entries, List.filter_append, List.map_append, ihs, ihb, List.filter_map,
      List.map_map, Function.comp_def, List.append_assoc, List.singleton_append]
    congr 1
    by_cases h : Key.accepts ⟨above ++ [t], false⟩ key <;> simp [h, List.filter_true]

/-! ## Tidy tries -/

/-- The tokens of sibling branches, in their order. -/
def tokens : Trie → List String
  | nil => []
  | branch t _ _ beside => t :: tokens beside

/-- Siblings have different tokens and stand in the order of their places. -/
def Tidy : Trie → Prop
  | nil => True
  | branch t _ below beside =>
    (∀ t' ∈ beside.tokens, t' ≠ t ∧ rank t ≤ rank t') ∧ below.Tidy ∧ beside.Tidy

theorem head_mem_tokens {t : Trie} {token : String} {rest : List String} {p : PeerRef}
    (h : (token :: rest, p) ∈ t.entries) : token ∈ t.tokens := by
  induction t with
  | nil => simp at h
  | branch t here below beside _ ih =>
    rcases mem_entries_branch.mp h with ⟨hpath, -⟩ | ⟨rest', hpath, -⟩ | hb
    · simp_all [tokens]
    · simp_all [tokens]
    · exact List.mem_cons_of_mem _ (ih hb)

/-- Behind a token that no sibling has there is nothing. -/
theorem not_mem_entries {t : Trie} {token : String} {rest : List String} {p : PeerRef}
    (h : token ∉ t.tokens) : (token :: rest, p) ∉ t.entries :=
  fun he ↦ h (head_mem_tokens he)

theorem Tidy.below {t : String} {here : List PeerRef} {below beside : Trie}
    (h : (branch t here below beside).Tidy) : below.Tidy := h.2.1

theorem Tidy.beside {t : String} {here : List PeerRef} {below beside : Trie}
    (h : (branch t here below beside).Tidy) : beside.Tidy := h.2.2

theorem Tidy.not_mem_beside {t : String} {here : List PeerRef} {below beside : Trie}
    (h : (branch t here below beside).Tidy) : t ∉ beside.tokens :=
  fun ht ↦ (h.1 t ht).1 rfl

theorem Tidy.rank_le {t t' : String} {here : List PeerRef} {below beside : Trie}
    (h : (branch t here below beside).Tidy) (ht' : t' ∈ (branch t here below beside).tokens) :
    rank t ≤ rank t' := by
  rcases List.mem_cons.mp ht' with rfl | hbeside
  · exact Nat.le_refl _
  · exact (h.1 t' hbeside).2

/-- A token whose place is before that of the first sibling is not there yet. -/
theorem Tidy.not_mem_of_rank_lt {t token : String} {here : List PeerRef} {below beside : Trie}
    (h : (branch t here below beside).Tidy) (hrank : rank token < rank t) :
    token ∉ (branch t here below beside).tokens :=
  fun ht ↦ absurd (h.rank_le ht) (Nat.not_le_of_lt hrank)

/-- What is behind the token of the first sibling alone is there. -/
theorem mem_entries_here {t : String} {here : List PeerRef} {below beside : Trie} {p : PeerRef}
    (h : t ∉ beside.tokens) : ([t], p) ∈ (branch t here below beside).entries ↔ p ∈ here := by
  have hbelow : ([], p) ∉ below.entries := fun hp ↦ ne_nil_of_mem_entries hp rfl
  rw [mem_entries_branch]
  simp [not_mem_entries h, hbelow]

/-- What is behind the token of the first sibling and others is below it. -/
theorem mem_entries_below {t : String} {here : List PeerRef} {below beside : Trie}
    {rest : List String} {p : PeerRef} (h : t ∉ beside.tokens) (hne : rest ≠ []) :
    (t :: rest, p) ∈ (branch t here below beside).entries ↔ (rest, p) ∈ below.entries := by
  rw [mem_entries_branch]
  simp [not_mem_entries h, hne]

/-- What is behind another token is behind that token beside it. -/
theorem mem_entries_other {t token : String} {here : List PeerRef} {below beside : Trie}
    {rest : List String} {p : PeerRef} (h : token ≠ t) :
    (token :: rest, p) ∈ (branch t here below beside).entries ↔
      (token :: rest, p) ∈ beside.entries := by
  rw [mem_entries_branch]
  simp [h]

/-! ## Filing a peer -/

theorem path_cons (p : PeerRef) (token : String) (tokens : List String) :
    path p (token :: tokens) =
      branch token (if tokens = [] then [p] else []) (path p tokens) nil := by
  cases tokens <;> simp [path]

theorem mem_entries_path {p q : PeerRef} {path' tokens : List String} (h : tokens ≠ []) :
    (path', q) ∈ (path p tokens).entries ↔ path' = tokens ∧ q = p := by
  induction tokens generalizing path' with
  | nil => exact absurd rfl h
  | cons token tokens ih =>
    rw [path_cons, mem_entries_branch]
    cases tokens with
    | nil => simp [path]
    | cons token' tokens =>
      simp only [ih (List.cons_ne_nil token' tokens)]
      simp only [reduceCtorEq, if_false, List.not_mem_nil, and_false, false_or, entries_nil,
        or_false]
      constructor
      · rintro ⟨rest, rfl, rfl, rfl⟩
        exact ⟨rfl, rfl⟩
      · rintro ⟨rfl, rfl⟩
        exact ⟨_, rfl, rfl, rfl⟩

theorem tidy_path (p : PeerRef) (tokens : List String) : (path p tokens).Tidy := by
  induction tokens with
  | nil => exact trivial
  | cons token tokens ih =>
    rw [path_cons]
    exact ⟨by simp [Trie.tokens], ih, trivial⟩

/-- A peer that is filed is there afterwards, unless one with its id was there before. -/
theorem mem_entries_add {t : Trie} (h : t.Tidy) {p q : PeerRef} {tokens path' : List String}
    (hne : tokens ≠ []) :
    (path', q) ∈ (t.add p tokens).entries ↔
      (path', q) ∈ t.entries ∨
        (path' = tokens ∧ q = p ∧ ∀ r, (tokens, r) ∈ t.entries → r.id ≠ p.id) := by
  fun_induction add p t tokens generalizing path' with
  | case1 => exact absurd rfl hne
  | case2 => simp [mem_entries_path hne]
  | case3 here below beside token =>
    simp only [mem_entries_here h.not_mem_beside]
    rw [mem_entries_branch, mem_entries_branch, mem_enlist]
    constructor
    · rintro (⟨rfl, hhere | hnew⟩ | hrest)
      · exact Or.inl (Or.inl ⟨rfl, hhere⟩)
      · exact Or.inr ⟨rfl, hnew⟩
      · exact Or.inl (Or.inr hrest)
    · rintro ((⟨rfl, hhere⟩ | hrest) | ⟨rfl, hnew⟩)
      · exact Or.inl ⟨rfl, Or.inl hhere⟩
      · exact Or.inr hrest
      · exact Or.inl ⟨rfl, Or.inr hnew⟩
  | case4 here below beside token tokens htokens ih =>
    simp only [mem_entries_below h.not_mem_beside htokens]
    rw [mem_entries_branch, mem_entries_branch]
    simp only [ih h.below htokens]
    constructor
    · rintro (hhere | ⟨rest, rfl, hrest | ⟨rfl, rfl, hr⟩⟩ | hbeside)
      · exact Or.inl (Or.inl hhere)
      · exact Or.inl (Or.inr (Or.inl ⟨rest, rfl, hrest⟩))
      · exact Or.inr ⟨rfl, rfl, hr⟩
      · exact Or.inl (Or.inr (Or.inr hbeside))
    · rintro ((hhere | ⟨rest, rfl, hrest⟩ | hbeside) | ⟨rfl, rfl, hr⟩)
      · exact Or.inl hhere
      · exact Or.inr (Or.inl ⟨rest, rfl, Or.inl hrest⟩)
      · exact Or.inr (Or.inr hbeside)
      · exact Or.inr (Or.inl ⟨tokens, rfl, Or.inr ⟨rfl, rfl, hr⟩⟩)
  | case5 t here below beside token tokens hne' hrank t' here' below' beside' hpath =>
    -- the new branch goes in front, since no sibling has a place before that of its token
    have hnew : token ∉ (branch t here below beside).tokens := h.not_mem_of_rank_lt hrank
    have hpath' : ∀ r path, (path, r) ∈ (branch t' here' below' beside').entries ↔
        path = token :: tokens ∧ r = p := by
      intro r path
      rw [← hpath, mem_entries_path hne]
    rw [path_cons, branch.injEq] at hpath
    obtain ⟨-, -, -, rfl⟩ := hpath
    have hfront := hpath' q path'
    rw [mem_entries_branch, entries_nil] at hfront
    rw [mem_entries_branch, ← or_assoc, or_comm]
    refine or_congr_right ?_
    simp only [List.not_mem_nil, or_false] at hfront
    rw [hfront]
    simp [not_mem_entries hnew]
  | case6 t here below beside token tokens hne' hrank hpath =>
    rw [path_cons] at hpath
    cases hpath
  | case7 t here below beside token tokens hne' hrank ih =>
    simp only [mem_entries_other (Ne.symm hne')]
    rw [mem_entries_branch, mem_entries_branch, ih h.beside hne]
    simp only [or_assoc]

theorem tokens_add {t : Trie} {p : PeerRef} {token token' : String} {tokens : List String}
    (h : token' ∈ (t.add p (token :: tokens)).tokens) : token' = token ∨ token' ∈ t.tokens := by
  generalize hts : token :: tokens = ts at h
  fun_induction add p t ts with
  | case1 => cases hts
  | case2 ts hne =>
    subst hts
    rw [path_cons] at h
    simpa [Trie.tokens] using h
  | case3 here below beside t => exact Or.inr h
  | case4 here below beside t ts hne ih => exact Or.inr h
  | case5 t here below beside t'' ts hne' hrank t' here' below' beside' hpath =>
    rw [path_cons, branch.injEq] at hpath
    obtain ⟨rfl, -⟩ := hpath
    obtain ⟨rfl, -⟩ := List.cons.inj hts
    simpa [Trie.tokens] using h
  | case6 t here below beside t'' ts hne' hrank hpath => exact Or.inr h
  | case7 t here below beside t'' ts hne' hrank ih =>
    rcases List.mem_cons.mp h with rfl | hb
    · exact Or.inr (List.mem_cons_self ..)
    · exact (ih hts hb).imp_right (List.mem_cons_of_mem t)

theorem Tidy.add {t : Trie} (h : t.Tidy) (p : PeerRef) (tokens : List String) :
    (t.add p tokens).Tidy := by
  fun_induction Trie.add p t tokens with
  | case1 => exact h
  | case2 tokens => exact tidy_path p tokens
  | case3 => exact h
  | case4 here below beside token tokens hne ih => exact ⟨h.1, ih h.below, h.beside⟩
  | case5 t here below beside token tokens hne hrank t' here' below' beside' hpath =>
    have hbelow : below'.Tidy := (hpath ▸ tidy_path p (token :: tokens)).below
    rw [path_cons, branch.injEq] at hpath
    obtain ⟨rfl, -⟩ := hpath
    refine ⟨fun t' ht' ↦ ?_, hbelow, h⟩
    refine ⟨fun he ↦ h.not_mem_of_rank_lt hrank (he ▸ ht'), ?_⟩
    exact Nat.le_trans (Nat.le_of_lt hrank) (h.rank_le ht')
  | case6 => exact h
  | case7 t here below beside token tokens hne hrank ih =>
    refine ⟨fun t' ht' ↦ ?_, h.below, ih h.beside⟩
    rcases tokens_add ht' with rfl | hbeside
    · exact ⟨Ne.symm hne, Nat.le_of_not_lt hrank⟩
    · exact h.1 t' hbeside

/-! ## Taking a peer out -/

theorem mem_entries_remove {t : Trie} (h : t.Tidy) {p q : PeerRef} {tokens path' : List String}
    (hne : tokens ≠ []) :
    (path', q) ∈ (t.remove p tokens).entries ↔
      (path', q) ∈ t.entries ∧ ¬(path' = tokens ∧ q.id = p.id) := by
  fun_induction remove p t tokens generalizing path' with
  | case1 => exact absurd rfl hne
  | case2 => simp
  | case3 here below beside token =>
    have hbeside : ∀ r, ([token], r) ∉ beside.entries := fun r ↦ not_mem_entries h.not_mem_beside
    rw [mem_entries_branch, mem_entries_branch, mem_delist]
    constructor
    · rintro (⟨rfl, hhere, hid⟩ | ⟨rest, rfl, hrest⟩ | hq)
      · exact ⟨Or.inl ⟨rfl, hhere⟩, fun he ↦ hid he.2⟩
      · refine ⟨Or.inr (Or.inl ⟨rest, rfl, hrest⟩), fun he ↦ ?_⟩
        exact ne_nil_of_mem_entries hrest (List.cons.inj he.1).2
      · exact ⟨Or.inr (Or.inr hq), fun he ↦ hbeside q (he.1 ▸ hq)⟩
    · rintro ⟨⟨rfl, hhere⟩ | hrest | hq, hnot⟩
      · exact Or.inl ⟨rfl, hhere, fun hid ↦ hnot ⟨rfl, hid⟩⟩
      · exact Or.inr (Or.inl hrest)
      · exact Or.inr (Or.inr hq)
  | case4 here below beside token tokens htokens ih =>
    have hbeside : ∀ r, (token :: tokens, r) ∉ beside.entries :=
      fun r ↦ not_mem_entries h.not_mem_beside
    rw [mem_entries_branch, mem_entries_branch]
    simp only [ih h.below htokens]
    constructor
    · rintro (⟨rfl, hhere⟩ | ⟨rest, rfl, hrest, hnot⟩ | hq)
      · exact ⟨Or.inl ⟨rfl, hhere⟩, fun he ↦ htokens (List.cons.inj he.1).2.symm⟩
      · refine ⟨Or.inr (Or.inl ⟨rest, rfl, hrest⟩), fun he ↦ ?_⟩
        exact hnot ⟨(List.cons.inj he.1).2, he.2⟩
      · exact ⟨Or.inr (Or.inr hq), fun he ↦ hbeside q (he.1 ▸ hq)⟩
    · rintro ⟨hhere | ⟨rest, rfl, hrest⟩ | hq, hnot⟩
      · exact Or.inl hhere
      · exact Or.inr (Or.inl ⟨rest, rfl, hrest, fun he ↦ hnot ⟨by rw [he.1], he.2⟩⟩)
      · exact Or.inr (Or.inr hq)
  | case5 t here below beside token tokens hne' ih =>
    rw [mem_entries_branch, mem_entries_branch, ih h.beside hne]
    constructor
    · rintro (⟨rfl, hhere⟩ | ⟨rest, rfl, hrest⟩ | ⟨hq, hnot⟩)
      · exact ⟨Or.inl ⟨rfl, hhere⟩, fun he ↦ hne' (List.cons.inj he.1).1⟩
      · exact ⟨Or.inr (Or.inl ⟨rest, rfl, hrest⟩), fun he ↦ hne' (List.cons.inj he.1).1⟩
      · exact ⟨Or.inr (Or.inr hq), hnot⟩
    · rintro ⟨hhere | hrest | hq, hnot⟩
      · exact Or.inl hhere
      · exact Or.inr (Or.inl hrest)
      · exact Or.inr (Or.inr ⟨hq, hnot⟩)

theorem tokens_remove (t : Trie) (p : PeerRef) (tokens : List String) :
    (t.remove p tokens).tokens = t.tokens := by
  fun_induction remove p t tokens with
  | case5 t here below beside token tokens hne ih => rw [Trie.tokens, Trie.tokens, ih]
  | _ => rfl

theorem Tidy.remove {t : Trie} (h : t.Tidy) (p : PeerRef) (tokens : List String) :
    (t.remove p tokens).Tidy := by
  fun_induction Trie.remove p t tokens with
  | case4 here below beside token tokens hne ih => exact ⟨h.1, ih h.below, h.beside⟩
  | case5 t here below beside token tokens hne ih =>
    exact ⟨fun t' ht' ↦ h.1 t' (tokens_remove beside p _ ▸ ht'), h.below, ih h.beside⟩
  | _ => exact h

end Trie

namespace Key

theorem parts_ne_of_isEmpty_ne {k k' : Key} (h : k.isEmpty ≠ k'.isEmpty) : k.parts ≠ k'.parts :=
  fun he ↦ h (by simp [isEmpty, he])

namespace SamePattern

theorem refl (k : Key) : SamePattern k k := Or.inr rfl

theorem symm {k k' : Key} (h : SamePattern k k') : SamePattern k' k :=
  h.imp And.symm Eq.symm

theorem isEmpty_eq {k k' : Key} (h : SamePattern k k') : k.isEmpty = k'.isEmpty := by
  rcases h with ⟨h, h'⟩ | h
  · rw [h, h']
  · simp [isEmpty, h]

theorem parts_eq {k k' : Key} (h : SamePattern k k') (hk : k.isEmpty = false) :
    k.parts = k'.parts := by
  rcases h with ⟨h, -⟩ | h
  · simp [hk] at h
  · exact h

theorem trans {k k' k'' : Key} (h : SamePattern k k') (h' : SamePattern k' k'') :
    SamePattern k k'' := by
  by_cases hk : k.isEmpty
  · exact Or.inl ⟨hk, by rw [← h'.isEmpty_eq, ← h.isEmpty_eq]; exact hk⟩
  · have hk : k.isEmpty = false := by simpa using hk
    exact Or.inr ((h.parts_eq hk).trans (h'.parts_eq (h.isEmpty_eq ▸ hk)))

/-- One pattern asks for one set of messages. -/
theorem accepts_eq {k k' : Key} (h : SamePattern k k') (key : Key) :
    k.accepts key = k'.accepts key := by
  rcases h with ⟨h, h'⟩ | h
  · rw [accepts_of_isEmpty h, accepts_of_isEmpty h']
  · exact accepts_congr_parts h key

end SamePattern

end Key

namespace Subscribers

open Key (SamePattern)

/-! ## The subscribers of a message type -/

/-- A peer is filed under a pattern. -/
def Holds (s : Subscribers) (pattern : Key) (p : PeerRef) : Prop :=
  if pattern.isEmpty then p ∈ s.toAll else (pattern.parts, p) ∈ s.byPattern.entries

theorem holds_of_isEmpty {s : Subscribers} {pattern : Key} {p : PeerRef}
    (h : pattern.isEmpty = true) : s.Holds pattern p ↔ p ∈ s.toAll := by
  rw [Holds, if_pos h]

theorem holds_of_not_isEmpty {s : Subscribers} {pattern : Key} {p : PeerRef}
    (h : pattern.isEmpty = false) :
    s.Holds pattern p ↔ (pattern.parts, p) ∈ s.byPattern.entries := by
  rw [Holds, if_neg (by simp [h])]

/-- A peer is filed under a pattern, not under one of the keys that write it. -/
theorem holds_congr {s : Subscribers} {k k' : Key} (h : SamePattern k k') (p : PeerRef) :
    s.Holds k p ↔ s.Holds k' p := by
  cases hk : k.isEmpty with
  | true => rw [holds_of_isEmpty hk, holds_of_isEmpty (h.isEmpty_eq ▸ hk)]
  | false =>
    rw [holds_of_not_isEmpty hk, holds_of_not_isEmpty (h.isEmpty_eq ▸ hk), h.parts_eq hk]

@[simp]
theorem not_holds_empty (pattern : Key) (p : PeerRef) : ¬ empty.Holds pattern p := by
  simp [Holds, empty]

/-- The trie is tidy, and those who ask for everything are not in it. -/
structure Tidy (s : Subscribers) : Prop where
  /-- The trie is tidy. -/
  trie : s.byPattern.Tidy
  /-- No pattern of the trie asks for everything. -/
  pattern : ∀ e ∈ s.byPattern.entries, (⟨e.1, false⟩ : Key).isEmpty = false

theorem tidy_empty : empty.Tidy := ⟨trivial, by simp [empty]⟩

theorem samePattern_iff_of_not_isEmpty {k k' : Key} (h : k.isEmpty = false) :
    SamePattern k k' ↔ k'.parts = k.parts := by
  simp only [SamePattern, h, Bool.false_eq_true, false_and, false_or]
  exact eq_comm

theorem samePattern_iff_of_isEmpty {k k' : Key} (h : k.isEmpty = true) :
    SamePattern k k' ↔ k'.isEmpty = true :=
  ⟨fun hs ↦ hs.isEmpty_eq ▸ h, fun h' ↦ Or.inl ⟨h, h'⟩⟩

/-- A peer that is filed is there afterwards, unless one with its id was there before. -/
theorem holds_add {s : Subscribers} (h : s.Tidy) (p : PeerRef) (k k' : Key) (q : PeerRef) :
    (s.add p k).Holds k' q ↔
      s.Holds k' q ∨ (SamePattern k k' ∧ q = p ∧ ∀ r, s.Holds k r → r.id ≠ p.id) := by
  cases hk : k.isEmpty with
  | true =>
    rw [add, if_pos hk, samePattern_iff_of_isEmpty hk]
    simp only [holds_of_isEmpty hk]
    cases hk' : k'.isEmpty with
    | true =>
      rw [holds_of_isEmpty hk', holds_of_isEmpty hk', mem_enlist]
      simp
    | false => simp [holds_of_not_isEmpty hk']
  | false =>
    rw [add, if_neg (by simp [hk]), samePattern_iff_of_not_isEmpty hk]
    simp only [holds_of_not_isEmpty hk]
    cases hk' : k'.isEmpty with
    | true =>
      have hne : k'.parts ≠ k.parts := Key.parts_ne_of_isEmpty_ne (by simp [hk, hk'])
      rw [holds_of_isEmpty hk', holds_of_isEmpty hk']
      simp [hne]
    | false =>
      rw [holds_of_not_isEmpty hk', holds_of_not_isEmpty hk',
        Trie.mem_entries_add h.trie (Key.parts_ne_nil hk)]

/-- A peer that is taken out is not there afterwards, whichever instance of it was. -/
theorem holds_remove {s : Subscribers} (h : s.Tidy) (p : PeerRef) (k k' : Key) (q : PeerRef) :
    (s.remove p k).Holds k' q ↔ s.Holds k' q ∧ ¬(SamePattern k k' ∧ q.id = p.id) := by
  cases hk : k.isEmpty with
  | true =>
    rw [remove, if_pos hk, samePattern_iff_of_isEmpty hk]
    cases hk' : k'.isEmpty with
    | true =>
      rw [holds_of_isEmpty hk', holds_of_isEmpty hk', mem_delist]
      simp
    | false => simp [holds_of_not_isEmpty hk']
  | false =>
    rw [remove, if_neg (by simp [hk]), samePattern_iff_of_not_isEmpty hk]
    cases hk' : k'.isEmpty with
    | true =>
      have hne : k'.parts ≠ k.parts := Key.parts_ne_of_isEmpty_ne (by simp [hk, hk'])
      rw [holds_of_isEmpty hk', holds_of_isEmpty hk']
      simp [hne]
    | false =>
      rw [holds_of_not_isEmpty hk', holds_of_not_isEmpty hk',
        Trie.mem_entries_remove h.trie (Key.parts_ne_nil hk)]

/-- A peer with this id is filed under a pattern. -/
def HoldsId (s : Subscribers) (pattern : Key) (id : PeerId) : Prop :=
  ∃ p, s.Holds pattern p ∧ p.id = id

@[simp]
theorem not_holdsId_empty (pattern : Key) (id : PeerId) : ¬ empty.HoldsId pattern id := by
  simp [HoldsId]

/-- Nobody is filed where nobody is subscribed, whatever branches are left. -/
theorem not_holdsId_of_isEmpty {s : Subscribers} (h : s.isEmpty) (pattern : Key) (id : PeerId) :
    ¬ s.HoldsId pattern id := by
  obtain ⟨hall, htrie⟩ : s.toAll = [] ∧ s.byPattern.entries = [] := by
    simpa [isEmpty, Trie.isEmpty_iff_all_eq_nil, Trie.all_eq_entries] using h
  simp [HoldsId, Holds, hall, htrie]

@[simp]
theorem remove_empty (p : PeerRef) (pattern : Key) : empty.remove p pattern = empty := by
  rw [remove]
  split
  · rfl
  · cases h : pattern.parts <;> simp [empty, Trie.remove]

/-- Afterwards the id of the peer is there, whichever instance has it. -/
theorem holdsId_add {s : Subscribers} (h : s.Tidy) (p : PeerRef) (k k' : Key) (id : PeerId) :
    (s.add p k).HoldsId k' id ↔ s.HoldsId k' id ∨ (id = p.id ∧ SamePattern k k') := by
  simp only [HoldsId, holds_add h]
  constructor
  · rintro ⟨q, hq | ⟨hsame, rfl, -⟩, rfl⟩
    · exact Or.inl ⟨q, hq, rfl⟩
    · exact Or.inr ⟨rfl, hsame⟩
  · rintro (⟨q, hq, hid⟩ | ⟨rfl, hsame⟩)
    · exact ⟨q, Or.inl hq, hid⟩
    · by_cases hthere : ∃ r, s.Holds k r ∧ r.id = p.id
      · obtain ⟨r, hr, hid⟩ := hthere
        exact ⟨r, Or.inl ((holds_congr hsame r).mp hr), hid⟩
      · exact ⟨p, Or.inr ⟨hsame, rfl, fun r hr hid ↦ hthere ⟨r, hr, hid⟩⟩, rfl⟩

/-- Afterwards the id of the peer is not there. -/
theorem holdsId_remove {s : Subscribers} (h : s.Tidy) (p : PeerRef) (k k' : Key) (id : PeerId) :
    (s.remove p k).HoldsId k' id ↔ s.HoldsId k' id ∧ ¬(id = p.id ∧ SamePattern k k') := by
  simp only [HoldsId, holds_remove h]
  constructor
  · rintro ⟨q, ⟨hq, hnot⟩, rfl⟩
    exact ⟨⟨q, hq, rfl⟩, fun he ↦ hnot ⟨he.2, he.1⟩⟩
  · rintro ⟨⟨q, hq, rfl⟩, hnot⟩
    exact ⟨q, ⟨hq, fun he ↦ hnot ⟨he.2, he.1⟩⟩, rfl⟩

theorem Tidy.add {s : Subscribers} (h : s.Tidy) (p : PeerRef) (k : Key) : (s.add p k).Tidy := by
  rw [Subscribers.add]
  split
  · exact ⟨h.trie, h.pattern⟩
  · next hk =>
    have hk : k.isEmpty = false := by simpa using hk
    refine ⟨h.trie.add p k.parts, ?_⟩
    rintro ⟨path, q⟩ he
    rcases (Trie.mem_entries_add h.trie (Key.parts_ne_nil hk)).mp he with hold | ⟨rfl, -⟩
    · exact h.pattern _ hold
    · exact hk

theorem Tidy.remove {s : Subscribers} (h : s.Tidy) (p : PeerRef) (k : Key) :
    (s.remove p k).Tidy := by
  rw [Subscribers.remove]
  split
  · exact ⟨h.trie, h.pattern⟩
  · next hk =>
    have hk : k.isEmpty = false := by simpa using hk
    refine ⟨h.trie.remove p k.parts, ?_⟩
    rintro ⟨path, q⟩ he
    exact h.pattern _ ((Trie.mem_entries_remove h.trie (Key.parts_ne_nil hk)).mp he).1

/-! ## Whom a message goes to -/

theorem nodup_ids_behind (s : Subscribers) (key : Key) :
    ((s.behind key).map PeerRef.id).Nodup :=
  nodup_ids_firstOfEachId _

/-- What the trie contributes to the peers behind a key. -/
theorem mem_hits_iff {s : Subscribers} (h : s.Tidy) (key : Key) (p : PeerRef) :
    (p ∈ if key.isEmpty then s.byPattern.all
      else if key.joined then s.byPattern.findJoined key []
      else s.byPattern.find key.parts) ↔
      ∃ path, (path, p) ∈ s.byPattern.entries ∧
        (key.isEmpty = true ∨ Key.accepts ⟨path, false⟩ key = true) := by
  by_cases hempty : key.isEmpty
  · rw [if_pos hempty, Trie.all_eq_entries]
    simp [hempty]
  · rw [if_neg hempty]
    by_cases hjoined : key.joined
    · rw [if_pos hjoined, Trie.findJoined_eq_entries]
      simp [hempty]
    · rw [if_neg hjoined, Trie.find_eq_entries]
      have hplain : ∀ path, (path, p) ∈ s.byPattern.entries →
          Key.accepts ⟨path, false⟩ key = Key.acceptsParts path key.parts := by
        intro path he
        simp [Key.accepts, h.pattern _ he, hjoined]
      simp only [List.mem_map, List.mem_filter, Prod.exists, hempty, Bool.false_eq_true, false_or]
      constructor
      · rintro ⟨path, q, ⟨he, ha⟩, rfl⟩
        exact ⟨path, he, (hplain path he).trans ha⟩
      · rintro ⟨path, he, ha⟩
        exact ⟨path, p, ⟨he, (hplain path he).symm.trans ha⟩, rfl⟩

/-- A message goes to the peers filed under a pattern that accepts its routing key, and to all of
them if it has no routing key. -/
theorem mem_ids_behind {s : Subscribers} (h : s.Tidy) {key : Key} {id : PeerId} :
    id ∈ (s.behind key).map PeerRef.id ↔
      ∃ pattern, s.HoldsId pattern id ∧ (key.isEmpty = true ∨ pattern.accepts key = true) := by
  rw [behind, mem_ids_firstOfEachId, List.map_append, List.mem_append, List.mem_map, List.mem_map]
  simp only [mem_hits_iff h]
  constructor
  · rintro (⟨p, hp, hid⟩ | ⟨p, ⟨path, he, ha⟩, hid⟩)
    · exact ⟨.empty, ⟨p, (holds_of_isEmpty rfl).mpr hp, hid⟩,
        Or.inr (Key.accepts_of_isEmpty rfl key)⟩
    · exact ⟨⟨path, false⟩, ⟨p, (holds_of_not_isEmpty (h.pattern _ he)).mpr he, hid⟩, ha⟩
  · rintro ⟨pattern, ⟨p, hp, hid⟩, ha⟩
    cases hk : pattern.isEmpty with
    | true => exact Or.inl ⟨p, (holds_of_isEmpty hk).mp hp, hid⟩
    | false =>
      refine Or.inr ⟨p, ⟨pattern.parts, (holds_of_not_isEmpty hk).mp hp, ?_⟩, hid⟩
      exact ha.imp_right fun ha ↦ (Key.accepts_congr_parts rfl key).trans ha

/-- A message goes to peers that are filed. -/
theorem exists_holds_of_mem_behind {s : Subscribers} (h : s.Tidy) {key : Key} {p : PeerRef}
    (hp : p ∈ s.behind key) : ∃ pattern, s.Holds pattern p := by
  obtain hall | hhits := List.mem_append.mp (mem_of_mem_firstOfEachId hp)
  · exact ⟨.empty, (holds_of_isEmpty rfl).mpr hall⟩
  · obtain ⟨path, he, -⟩ := (mem_hits_iff h key p).mp hhits
    exact ⟨⟨path, false⟩, (holds_of_not_isEmpty (h.pattern _ he)).mpr he⟩

end Subscribers

end ServiceBus
