import Mathlib.Data.List.Induction
import ServiceBus.Proofs.Directory.FailOver

/-!
# The order in which servers are chosen

Servers fail, answer again, time passes, and now and then the servers are put into an order, or the
order that was chosen last is asked for again.  From such a *history* alone it can be told which
servers are cooling down, and since when: those whose latest fault was not cleared and is younger
than the cooldown (`Servers.FailedAt`).

`Servers.isArranged_of_history` says what order comes out.  All servers are in it, each once; first
those that are not cooling down, and then the others, the earlier fault first.  If the order is not
to be random, servers that this does not tell apart are in the order of the settings, so that no
other order is possible.  If it is to be random, every order of that kind is possible.

Times are counted in the unit of the cooldown, which may be any number, so that the unit may be as
small as one likes.
-/

set_option autoImplicit false

namespace ServiceBus.Directory

theorem insertIdx_length_append {α : Type} (as bs : List α) (a : α) :
    (as ++ bs).insertIdx as.length a = as ++ a :: bs := by
  induction as with
  | nil => rfl
  | cons a' as ih => exact congrArg (List.cons a') ih

/-- A shuffle can bring every order about. -/
theorem exists_shuffled {α : Type} {as bs : List α} (h : bs.Perm as) :
    ∃ seed, shuffled seed as = bs := by
  induction as generalizing bs with
  | nil => exact ⟨0, (List.perm_nil.mp h).symm⟩
  | cons a as ih =>
    obtain ⟨early, late, rfl⟩ := List.append_of_mem (h.mem_iff.mpr List.mem_cons_self)
    have hrest : (early ++ late).Perm as := List.perm_cons a |>.mp (List.perm_middle.symm.trans h)
    obtain ⟨seed, hseed⟩ := ih hrest
    have hplace : early.length < as.length + 1 := by
      have hlength := hrest.length_eq
      rw [List.length_append] at hlength
      omega
    have hdigits : (early.length + (as.length + 1) * seed) % (as.length + 1) = early.length ∧
        (early.length + (as.length + 1) * seed) / (as.length + 1) = seed := by
      rw [Nat.add_mul_mod_self_left, Nat.mod_eq_of_lt hplace,
        Nat.add_mul_div_left _ _ (Nat.succ_pos _), Nat.div_eq_of_lt hplace, Nat.zero_add]
      exact ⟨rfl, rfl⟩
    refine ⟨early.length + (as.length + 1) * seed, ?_⟩
    rw [shuffled, hdigits.1, hdigits.2, hseed]
    exact insertIdx_length_append early late a

section Sorted

variable {α : Type} (key : α → Nat) (as : List α)

/-- A list in the order of a key. -/
def sortedBy : List α := as.mergeSort fun a b ↦ key a ≤ key b

theorem sortedBy_perm : (sortedBy key as).Perm as := List.mergeSort_perm ..

theorem key_trans (a b c : α) (hab : decide (key a ≤ key b) = true)
    (hbc : decide (key b ≤ key c) = true) : decide (key a ≤ key c) = true :=
  decide_eq_true (Nat.le_trans (of_decide_eq_true hab) (of_decide_eq_true hbc))

theorem key_total (a b : α) : (decide (key a ≤ key b) || decide (key b ≤ key a)) = true := by
  simpa using Nat.le_total (key a) (key b)

theorem pairwise_sortedBy : (sortedBy key as).Pairwise fun a b ↦ key a ≤ key b :=
  (List.pairwise_mergeSort (key_trans key) (key_total key) as).imp of_decide_eq_true

/-- Sorting leaves what has the same key in its order. -/
theorem filter_sortedBy (n : Nat) :
    (sortedBy key as).filter (fun a ↦ key a = n) = as.filter fun a ↦ key a = n := by
  have hsorted : (as.filter fun a ↦ key a = n).Pairwise fun a b ↦
      decide (key a ≤ key b) = true := by
    refine List.pairwise_of_forall_mem_list fun a ha b hb ↦ ?_
    have hna : key a = n := of_decide_eq_true (List.mem_filter.mp ha).2
    have hnb : key b = n := of_decide_eq_true (List.mem_filter.mp hb).2
    exact decide_eq_true (Nat.le_of_eq (hna.trans hnb.symm))
  have hsublist : (as.filter fun a ↦ key a = n).Sublist (sortedBy key as) :=
    List.sublist_mergeSort (key_trans key) (key_total key) hsorted List.filter_sublist
  have hfiltered := hsublist.filter fun a ↦ key a = n
  simp only [List.filter_filter, Bool.and_self] at hfiltered
  exact (hfiltered.eq_of_length ((sortedBy_perm key as).filter _).length_eq.symm).symm

/-- What holds of earlier and later members of a list holds of those with the same key when the list
is sorted. -/
theorem pairwise_tied_sortedBy {R : α → α → Prop} (h : as.Pairwise R) :
    (sortedBy key as).Pairwise fun a b ↦ key a = key b → R a b := by
  refine List.pairwise_iff_forall_sublist.mpr fun {a b} hpair hkey ↦ ?_
  have htied := hpair.filter fun a ↦ key a = key b
  rw [filter_sortedBy] at htied
  have hkept : [a, b].filter (fun a ↦ key a = key b) = [a, b] := by simp [hkey]
  rw [hkept] at htied
  exact List.pairwise_iff_forall_sublist.mp h (htied.trans List.filter_sublist)

end Sorted

namespace Servers

/-! ## Histories -/

/-- What happens to the servers. -/
inductive Move
  /-- A server fails. -/
  | fail (id : PeerId)
  /-- A server answers, and its fault is cleared. -/
  | clear (id : PeerId)
  /-- Time passes. -/
  | wait (time : Nat)
  /-- An order is chosen, with a seed for a random one. -/
  | select (seed : Nat)
  /-- The order that was chosen last is asked for again. -/
  | reselect (seed : Nat)

/-- The servers and the time. -/
structure Watch where
  /-- The servers. -/
  servers : Servers
  /-- The time. -/
  now : Nat := 0

namespace Watch

/-- The servers of the settings, at the beginning. -/
def start (settings : Settings) : Watch := ⟨ofSettings settings, 0⟩

/-- What a move yields, if it yields an order, and what it leaves. -/
def move (w : Watch) : Move → Option (List Peer) × Watch
  | .fail id => (none, { w with servers := w.servers.markFaulty w.now id })
  | .clear id => (none, { w with servers := w.servers.clearFaulty id })
  | .wait time => (none, { w with now := w.now + time })
  | .select seed =>
    let (order, servers) := w.servers.select w.now seed
    (some order, { w with servers })
  | .reselect seed =>
    let (order, servers) := w.servers.reselect w.now seed
    (some order, { w with servers })

/-- What a history leaves. -/
def run (w : Watch) (history : List Move) : Watch := history.foldl (fun w m ↦ (w.move m).2) w

/-- The orders that a history yields, one after the other. -/
def yielded : Watch → List Move → List (List Peer)
  | _, [] => []
  | w, m :: history => (w.move m).1.toList ++ (w.move m).2.yielded history

theorem run_concat (w : Watch) (history : List Move) (m : Move) :
    w.run (history ++ [m]) = ((w.run history).move m).2 :=
  List.foldl_concat ..

theorem yielded_concat (w : Watch) (history : List Move) (m : Move) :
    w.yielded (history ++ [m]) = w.yielded history ++ ((w.run history).move m).1.toList := by
  induction history generalizing w with
  | nil => exact List.append_nil _
  | cons m' history ih =>
    rw [List.cons_append, yielded, yielded, ih, List.append_assoc]
    rfl

end Watch

/-- The time that a move takes. -/
def Move.time : Move → Nat
  | wait time => time
  | _ => 0

/-- The time that a history takes. -/
def elapsed (history : List Move) : Nat := history.foldl (fun time m ↦ time + m.time) 0

/-- The latest fault of a server was at a time, and was not cleared. -/
def FailedAt (history : List Move) (id : PeerId) (time : Nat) : Prop :=
  ∃ before after, history = before ++ .fail id :: after ∧ elapsed before = time ∧
    .fail id ∉ after ∧ .clear id ∉ after

theorem elapsed_concat (history : List Move) (m : Move) :
    elapsed (history ++ [m]) = elapsed history + m.time :=
  List.foldl_concat ..

/-- One more move, and the latest fault of a server. -/
theorem failedAt_concat {history : List Move} {m : Move} {id : PeerId} {time : Nat} :
    FailedAt (history ++ [m]) id time ↔
      m = .fail id ∧ elapsed history = time ∨
        m ≠ .fail id ∧ m ≠ .clear id ∧ FailedAt history id time := by
  constructor
  · rintro ⟨before, after, hsplit, htime, hfail, hclear⟩
    obtain rfl | ⟨after, m', rfl⟩ := after.eq_nil_or_concat
    · obtain ⟨rfl, hm⟩ := List.append_inj' hsplit rfl
      exact Or.inl ⟨List.head_eq_of_cons_eq hm, htime⟩
    · rw [List.concat_eq_append] at hsplit hfail hclear
      rw [← List.cons_append, ← List.append_assoc] at hsplit
      obtain ⟨rfl, hm⟩ := List.append_inj' hsplit rfl
      obtain rfl := List.head_eq_of_cons_eq hm
      rw [List.mem_append, List.mem_singleton, not_or] at hfail hclear
      exact Or.inr ⟨Ne.symm hfail.2, Ne.symm hclear.2, before, after, rfl, htime, hfail.1, hclear.1⟩
  · rintro (⟨rfl, htime⟩ | ⟨hfail, hclear, before, after, rfl, htime, hfail', hclear'⟩)
    · exact ⟨history, [], rfl, htime, List.not_mem_nil, List.not_mem_nil⟩
    · refine ⟨before, after ++ [m], by simp, htime, ?_, ?_⟩
      · simpa using ⟨hfail', Ne.symm hfail⟩
      · simpa using ⟨hclear', Ne.symm hclear⟩

/-! ## What the servers keep of a history -/

/-- The state is what a history has made of the settings. -/
structure Watch.Keeps (w : Watch) (settings : Settings) (history : List Move)
    (yielded : List (List Peer)) : Prop where
  /-- The time is the time that has passed. -/
  now : w.now = elapsed history
  /-- The servers are those of the settings. -/
  configured : w.servers.configured = (ofSettings settings).configured
  /-- The order is random if the settings say so. -/
  random : w.servers.random = settings.directoryPickedRandomly
  /-- The cooldown is that of the settings. -/
  cooldown : w.servers.cooldownMs = settings.faultyDirectoryCooldownMs
  /-- The faults are the latest ones that were not cleared. -/
  faulty : ∀ id time, w.servers.faultySince.find? id = some time ↔ FailedAt history id time
  /-- The order that is remembered is the last one that was yielded. -/
  selected : w.servers.selected = yielded.getLast?.getD []

namespace Watch.Keeps

variable {w : Watch} {settings : Settings} {history : List Move} {yielded : List (List Peer)}

theorem start (settings : Settings) : (start settings).Keeps settings [] [] where
  now := rfl
  configured := rfl
  random := rfl
  cooldown := rfl
  faulty id time := by
    refine iff_of_false nofun fun ⟨before, after, hsplit, _⟩ ↦ ?_
    exact List.append_ne_nil_of_right_ne_nil before (List.cons_ne_nil _ _) hsplit.symm
  selected := rfl

/-- A move that is about no fault leaves the faults. -/
theorem faulty_of_quiet (h : w.Keeps settings history yielded) {m : Move}
    (hquiet : ∀ id, m ≠ .fail id ∧ m ≠ .clear id) (id : PeerId) (time : Nat) :
    w.servers.faultySince.find? id = some time ↔ FailedAt (history ++ [m]) id time := by
  obtain ⟨hfail, hclear⟩ := hquiet id
  rw [h.faulty, failedAt_concat]
  simp [hfail, hclear]

theorem fail (h : w.Keeps settings history yielded) (id : PeerId) :
    (w.move (.fail id)).2.Keeps settings (history ++ [.fail id]) yielded where
  now := by
    rw [elapsed_concat]
    exact h.now
  configured := h.configured
  random := h.random
  cooldown := h.cooldown
  faulty id' time := by
    show (w.servers.faultySince.insert id w.now).find? id' = _ ↔ _
    rw [Table.find?_insert, failedAt_concat, ← h.now]
    by_cases hid : id' = id
    · subst hid
      simp
    · simp [hid, Ne.symm hid, h.faulty]
  selected := h.selected

theorem clear (h : w.Keeps settings history yielded) (id : PeerId) :
    (w.move (.clear id)).2.Keeps settings (history ++ [.clear id]) yielded where
  now := by
    rw [elapsed_concat]
    exact h.now
  configured := h.configured
  random := h.random
  cooldown := h.cooldown
  faulty id' time := by
    show (w.servers.faultySince.erase id).find? id' = _ ↔ _
    rw [Table.find?_erase, failedAt_concat]
    by_cases hid : id' = id
    · subst hid
      simp
    · simp [hid, Ne.symm hid, h.faulty]
  selected := h.selected

/-- An order that is yielded is remembered. -/
theorem yields (h : w.Keeps settings history yielded) {m : Move}
    (hquiet : ∀ id, m ≠ .fail id ∧ m ≠ .clear id) (htime : m.time = 0) (order : List Peer) :
    ({ w with servers := { w.servers with selected := order } } : Watch).Keeps settings
      (history ++ [m]) (yielded ++ [order]) where
  now := by
    rw [elapsed_concat, htime]
    exact h.now
  configured := h.configured
  random := h.random
  cooldown := h.cooldown
  faulty := h.faulty_of_quiet hquiet
  selected := by
    rw [List.getLast?_concat]
    rfl

theorem wait (h : w.Keeps settings history yielded) (time : Nat) :
    (w.move (.wait time)).2.Keeps settings (history ++ [.wait time]) yielded where
  now := by
    rw [elapsed_concat, ← h.now]
    rfl
  configured := h.configured
  random := h.random
  cooldown := h.cooldown
  faulty := h.faulty_of_quiet fun _ ↦ ⟨nofun, nofun⟩
  selected := h.selected

theorem move (h : w.Keeps settings history yielded) (m : Move) :
    (w.move m).2.Keeps settings (history ++ [m]) (yielded ++ (w.move m).1.toList) := by
  cases m with
  | fail id => exact (List.append_nil yielded).symm ▸ h.fail id
  | clear id => exact (List.append_nil yielded).symm ▸ h.clear id
  | wait time => exact (List.append_nil yielded).symm ▸ h.wait time
  | select seed => exact h.yields (m := .select seed) (fun _ ↦ ⟨nofun, nofun⟩) rfl _
  | reselect seed =>
    have hyields := h.yields (m := .reselect seed) (fun _ ↦ ⟨nofun, nofun⟩) rfl
    show ({ w with servers := (w.servers.reselect w.now seed).2 } : Watch).Keeps settings _
      (yielded ++ [(w.servers.reselect w.now seed).1])
    rw [Servers.reselect]
    split
    · exact hyields (w.servers.order w.now seed)
    · exact hyields w.servers.selected

theorem run (settings : Settings) (history : List Move) :
    ((Watch.start settings).run history).Keeps settings history
      ((Watch.start settings).yielded history) := by
  induction history using List.reverseRecOn with
  | nil => exact start settings
  | append_singleton history m ih =>
    rw [run_concat, yielded_concat]
    exact ih.move m

/-- Who is cooling down can be told from the history. -/
theorem coolingSince (h : w.Keeps settings history yielded) (id : PeerId) (time : Nat) :
    w.servers.coolingSince w.now id = some time ↔
      FailedAt history id time ∧ elapsed history - time < settings.faultyDirectoryCooldownMs := by
  rw [Servers.coolingSince, Option.filter_eq_some_iff, h.faulty, h.now, h.cooldown,
    decide_eq_true_eq]

end Watch.Keeps

/-! ## Which orders are right -/

/-- A server may be tried before another: if it is cooling down, then so is the other, and the fault
of the other is not earlier. -/
def MayPrecede (since : PeerId → Option Nat) (p q : Peer) : Prop :=
  ∀ time, since p.id = some time → ∃ time', since q.id = some time' ∧ time ≤ time'

/-- All servers are there, first those that are not cooling down, and then the others, the earlier
fault first. -/
structure IsArranged (servers : List Peer) (since : PeerId → Option Nat) (order : List Peer) :
    Prop where
  /-- The servers are there. -/
  perm : order.Perm servers
  /-- None is before one that it may not precede. -/
  precede : order.Pairwise (MayPrecede since)

/-- Servers that are not cooling down, or have been for equally long, are in the order of a list. -/
def KeepsOrder (servers : List Peer) (since : PeerId → Option Nat) (order : List Peer) : Prop :=
  order.Pairwise fun p q ↦ since p.id = since q.id → servers.idxOf p < servers.idxOf q

variable {servers candidates order order' : List Peer} {since : PeerId → Option Nat}

theorem MayPrecede.antisymm {p q : Peer} (h : MayPrecede since p q) (h' : MayPrecede since q p) :
    since p.id = since q.id := by
  cases hp : since p.id with
  | none =>
    cases hq : since q.id with
    | none => rfl
    | some time =>
      obtain ⟨_, hsome, _⟩ := h' time hq
      exact absurd (hp.symm.trans hsome) nofun
  | some time =>
    obtain ⟨time', hq, hle⟩ := h time hp
    obtain ⟨_, hsame, hle'⟩ := h' time' hq
    obtain rfl := Option.some.inj (hp.symm.trans hsame)
    rw [hq, Nat.le_antisymm hle hle']

/-- At most one order is right and keeps the order of a list. -/
theorem IsArranged.eq_of_keepsOrder (h : IsArranged servers since order)
    (h' : IsArranged servers since order') (hkeeps : KeepsOrder candidates since order)
    (hkeeps' : KeepsOrder candidates since order') : order = order' := by
  refine List.Perm.eq_of_pairwise ?_ (h.precede.and hkeeps) (h'.precede.and hkeeps')
    (h.perm.trans h'.perm.symm)
  rintro p q - - ⟨hprecede, hlist⟩ ⟨hprecede', hlist'⟩
  have hsame := hprecede.antisymm hprecede'
  exact absurd (hlist hsame) (Nat.lt_asymm (hlist' hsame.symm))

/-! ## The order that comes out -/

/-- Some servers in the order in which they are tried. -/
def arranged (since : PeerId → Option Nat) (candidates : List Peer) : List Peer :=
  (candidates.filter fun p ↦ !(since p.id).isSome) ++
    sortedBy (fun p ↦ (since p.id).getD 0) (candidates.filter fun p ↦ (since p.id).isSome)

theorem order_eq (s : Servers) (now seed : Nat) :
    s.order now seed = arranged (s.coolingSince now)
      (if s.random then shuffled seed s.configured else s.configured) := by
  rw [order, List.partition_eq_filter_filter]
  rfl

theorem arranged_perm (since : PeerId → Option Nat) (candidates : List Peer) :
    (arranged since candidates).Perm candidates :=
  ((sortedBy_perm _ _).append_left _).trans
    (List.perm_append_comm.trans (List.filter_append_perm _ _))

theorem pairwise_arranged {R : Peer → Peer → Prop}
    (hready : candidates.Pairwise fun p q ↦ since p.id = none → since q.id = none → R p q)
    (hacross : ∀ p q time, since p.id = none → since q.id = some time → R p q)
    (hcooling : (sortedBy (fun p ↦ (since p.id).getD 0)
      (candidates.filter fun p ↦ (since p.id).isSome)).Pairwise fun p q ↦
        ∀ time time', since p.id = some time → since q.id = some time' → R p q) :
    (arranged since candidates).Pairwise R := by
  have hnone : ∀ p ∈ candidates.filter fun p ↦ !(since p.id).isSome, since p.id = none :=
    fun p hp ↦ by simpa using (List.mem_filter.mp hp).2
  have hsome : ∀ p ∈ sortedBy (fun p ↦ (since p.id).getD 0)
      (candidates.filter fun p ↦ (since p.id).isSome), ∃ time, since p.id = some time :=
    fun p hp ↦ Option.isSome_iff_exists.mp
      (List.mem_filter.mp ((sortedBy_perm _ _).mem_iff.mp hp)).2
  refine List.pairwise_append.mpr ⟨?_, ?_, fun p hp q hq ↦ ?_⟩
  · exact (hready.filter _).imp_of_mem fun hp hq h ↦ h (hnone _ hp) (hnone _ hq)
  · refine hcooling.imp_of_mem fun hp hq h ↦ ?_
    obtain ⟨time, htime⟩ := hsome _ hp
    obtain ⟨time', htime'⟩ := hsome _ hq
    exact h time time' htime htime'
  · obtain ⟨time, htime⟩ := hsome q hq
    exact hacross p q time (hnone p hp) htime

theorem isArranged_arranged (hperm : candidates.Perm servers) :
    IsArranged servers since (arranged since candidates) where
  perm := (arranged_perm since candidates).trans hperm
  precede := by
    have hready (p q : Peer) (hnone : since p.id = none) : MayPrecede since p q :=
      fun time hsome ↦ absurd (hnone.symm.trans hsome) nofun
    refine pairwise_arranged (List.pairwise_of_forall fun p q hnone _ ↦ hready p q hnone)
      (fun p q _ hnone _ ↦ hready p q hnone) ((pairwise_sortedBy _ _).imp ?_)
    intro p q hle time time' htime htime' u hu
    obtain rfl := Option.some.inj (htime.symm.trans hu)
    rw [htime, htime'] at hle
    exact ⟨time', htime', hle⟩

theorem pairwise_idxOf (h : candidates.Nodup) :
    candidates.Pairwise fun p q ↦ candidates.idxOf p < candidates.idxOf q := by
  refine List.pairwise_iff_getElem.mpr fun i j hi hj hlt ↦ ?_
  rwa [h.idxOf_getElem, h.idxOf_getElem]

theorem keepsOrder_arranged (hnodup : candidates.Nodup) :
    KeepsOrder candidates since (arranged since candidates) := by
  refine pairwise_arranged ?_ (fun p q _ hnone hsome hsame ↦ ?_) ?_
  · exact (pairwise_idxOf hnodup).imp fun hlt _ _ _ ↦ hlt
  · exact absurd (hnone.symm.trans (hsame.trans hsome)) nofun
  · refine (pairwise_tied_sortedBy _ _ ((pairwise_idxOf hnodup).filter _)).imp ?_
    intro p q h _ _ _ _ hsame
    exact h (congrArg (Option.getD · 0) hsame)

/-- An order that is right comes out if the servers were in it before. -/
theorem IsArranged.arranged_eq (h : IsArranged servers since order) (hnodup : order.Nodup) :
    arranged since order = order := by
  have hkeeps : KeepsOrder order since order := by
    refine (pairwise_idxOf hnodup).imp ?_
    intro p q hlt _
    exact hlt
  exact (isArranged_arranged h.perm).eq_of_keepsOrder h (keepsOrder_arranged hnodup) hkeeps

/-! ## The theorem -/

theorem reselect_fst (s : Servers) (now seed : Nat) :
    (s.reselect now seed).1 = match s.selected with
      | [] => (s.select now seed).1
      | p :: order => p :: order := by
  rw [reselect]
  cases s.selected with
  | nil => rfl
  | cons p order => rfl

/-- **The order of the servers.**  Let servers fail and answer, time pass, and orders be chosen and
asked for again, in any way.  Then it can be told who is cooling down, and since when, and the order
that is chosen next has every server once: first those that are not cooling down, and then the
others, the earlier fault first.

* If the order is not to be random, what this leaves open is as in the settings, and so there is one
  order only.
* If it is to be random, every order that this leaves open is possible.
* The order that was chosen last is yielded again when it is asked for, unless there is none or
  nobody is in it: then a new one is chosen. -/
theorem isArranged_of_history (settings : Settings) (history : List Move) (seed : Nat) :
    let w := (Watch.start settings).run history
    let servers := settings.directoryEndPoints.mapIdx fun i endPoint ↦
      Peer.live (.directory i) endPoint
    let order := (w.servers.select w.now seed).1
    ∃ since : PeerId → Option Nat,
      (∀ id time, since id = some time ↔ FailedAt history id time ∧
        elapsed history - time < settings.faultyDirectoryCooldownMs) ∧
      (order.map Peer.id).Nodup ∧ IsArranged servers since order ∧
      (settings.directoryPickedRandomly = false → KeepsOrder servers since order ∧
        ∀ order', IsArranged servers since order' → KeepsOrder servers since order' →
          order' = order) ∧
      (settings.directoryPickedRandomly = true → ∀ order', IsArranged servers since order' →
        ∃ seed', (w.servers.select w.now seed').1 = order') ∧
      (w.servers.reselect w.now seed).1 =
        match ((Watch.start settings).yielded history).getLast? with
        | some (p :: later) => p :: later
        | _ => order := by
  intro w servers order
  have hkeeps := Watch.Keeps.run settings history
  have hconfigured : w.servers.configured = servers := hkeeps.configured
  have hids : (servers.map Peer.id).Nodup := (distinct_ofSettings settings).configured
  have hnodup : servers.Nodup := hids.of_map
  have horder (seed : Nat) : (w.servers.select w.now seed).1 =
      arranged (w.servers.coolingSince w.now)
        (if settings.directoryPickedRandomly then shuffled seed servers else servers) :=
    hconfigured ▸ hkeeps.random ▸ order_eq w.servers w.now seed
  have harranged : IsArranged servers (w.servers.coolingSince w.now) order := by
    rw [show order = _ from horder seed]
    refine isArranged_arranged ?_
    split
    · exact shuffled_perm seed servers
    · exact .refl _
  refine ⟨w.servers.coolingSince w.now, hkeeps.coolingSince, ?_, harranged, ?_, ?_, ?_⟩
  · exact (harranged.perm.map Peer.id).nodup_iff.mpr hids
  · intro hfixed
    have hkeeps' : KeepsOrder servers (w.servers.coolingSince w.now) order := by
      rw [show order = _ from horder seed, hfixed]
      exact keepsOrder_arranged hnodup
    exact ⟨hkeeps', fun order' h' hkeeps'' ↦ h'.eq_of_keepsOrder harranged hkeeps'' hkeeps'⟩
  · intro hrandom order' h'
    obtain ⟨seed', hseed'⟩ := exists_shuffled h'.perm
    refine ⟨seed', ?_⟩
    rw [horder, hrandom, if_pos rfl, hseed']
    exact h'.arranged_eq (h'.perm.nodup_iff.mpr hnodup)
  · rw [reselect_fst, hkeeps.selected]
    cases (Watch.start settings).yielded history |>.getLast? with
    | none => rfl
    | some last => cases last <;> rfl

end Servers

end ServiceBus.Directory
