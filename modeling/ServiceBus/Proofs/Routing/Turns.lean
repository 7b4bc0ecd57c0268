import Mathlib.Data.List.Rotate
import ServiceBus.Rotation

/-!
# Taking turns

Commands of many types are picked a handler for, one after the other, with handlers and states of the
peers that may be others at each pick.  A pick among at least two handlers takes a turn of its type,
and the number of turns taken before says which of the candidates it is (`Rotation.picked_eq`).  A
single handler is picked without a turn.

So as long as a type has the same candidates, they are picked in their order, round and round, and
as many picks as there are candidates pick each of them once (`Rotation.fair_of_run`).  What holds
when the candidates change is still to be read off the numbers of the turns.
-/

set_option autoImplicit false

namespace ServiceBus.Rotation

/-! ## One pick -/

/-- A pick that is asked for. -/
structure Request where
  /-- The type of the command. -/
  type : MessageType
  /-- The peers that handle it. -/
  handlers : List PeerRef
  /-- The states of all peers at that time. -/
  roster : Roster

namespace Request

/-- The handlers that may be picked. -/
def candidates (q : Request) : List PeerRef := Rotation.candidates q.roster.isLive q.handlers

/-- The turns of a type that the pick takes: one or none. -/
def turns (type : MessageType) (q : Request) : Nat :=
  if q.type = type ∧ 2 ≤ q.handlers.length then 1 else 0

end Request

/-- Picks a handler. -/
def serve (r : Rotation) (q : Request) : Option PeerRef × Rotation :=
  r.pick q.roster.isLive q.type q.handlers

theorem mem_candidates {isLive : PeerRef → Bool} {handlers : List PeerRef} {p : PeerRef}
    (h : p ∈ candidates isLive handlers) :
    p ∈ handlers ∧ ((∃ p' ∈ handlers, isLive p' = true) → isLive p = true) := by
  rw [candidates] at h
  split at h
  · next hnone =>
    refine ⟨h, ?_⟩
    rintro ⟨p', hmem, hlive⟩
    rw [List.isEmpty_iff, List.filter_eq_nil_iff] at hnone
    exact absurd hlive (hnone p' hmem)
  · obtain ⟨hmem, hlive⟩ := List.mem_filter.mp h
    exact ⟨hmem, fun _ ↦ hlive⟩

/-- When some handlers are live, they are the candidates. -/
theorem candidates_of_live {isLive : PeerRef → Bool} {handlers : List PeerRef}
    (h : handlers.filter isLive ≠ []) : candidates isLive handlers = handlers.filter isLive := by
  rw [candidates]
  exact if_neg (by rwa [List.isEmpty_iff])

/-- Among at least two handlers the turn decides. -/
theorem serve_of_two {q : Request} (h : 2 ≤ q.handlers.length) (r : Rotation) :
    r.serve q = (q.candidates[r.turn q.type % q.candidates.length]?,
      ⟨r.turns.insert q.type ((r.turn q.type + 1) % period)⟩) := by
  obtain ⟨type, handlers, roster⟩ := q
  match handlers with
  | [] => exact absurd h (by simp)
  | [only] => exact absurd h (by simp)
  | _ :: _ :: _ => rfl

/-- Fewer handlers take no turn. -/
theorem serve_of_fewer {q : Request} (h : ¬ 2 ≤ q.handlers.length) (r : Rotation) :
    r.serve q = (q.handlers.head?, r) := by
  obtain ⟨type, handlers, roster⟩ := q
  match handlers with
  | [] => rfl
  | [only] => rfl
  | _ :: _ :: _ => exact absurd (by simp) h

theorem turn_serve (r : Rotation) (q : Request) (type : MessageType) :
    (r.serve q).2.turn type =
      if q.turns type = 1 then (r.turn type + 1) % period else r.turn type := by
  rw [Request.turns]
  by_cases htwo : 2 ≤ q.handlers.length
  · rw [serve_of_two htwo, turn_insert]
    by_cases htype : q.type = type
    · rw [if_pos htype.symm, if_pos (if_pos ⟨htype, htwo⟩), htype]
    · rw [if_neg (Ne.symm htype), if_neg]
      rw [if_neg fun hboth ↦ htype hboth.1]
      exact Nat.zero_ne_one
  · rw [serve_of_fewer htwo, if_neg]
    rw [if_neg fun hboth ↦ htwo hboth.2]
    exact Nat.zero_ne_one

/-- There is always somebody to pick, unless nobody handles the command. -/
theorem serve_eq_none_iff (r : Rotation) (q : Request) : (r.serve q).1 = none ↔ q.handlers = [] := by
  by_cases htwo : 2 ≤ q.handlers.length
  · have hsome : q.handlers ≠ [] := List.ne_nil_of_length_pos (by omega)
    have hcandidates : 0 < q.candidates.length :=
      List.length_pos_of_ne_nil (candidates_ne_nil _ hsome)
    rw [serve_of_two htwo, List.getElem?_eq_none_iff]
    exact iff_of_false (Nat.not_le_of_lt (Nat.mod_lt _ hcandidates)) hsome
  · rw [serve_of_fewer htwo, List.head?_eq_none_iff]

/-- Who is picked handles the command, and is live if one of several handlers is. -/
theorem of_serve_eq_some {r : Rotation} {q : Request} {p : PeerRef}
    (h : (r.serve q).1 = some p) :
    p ∈ q.handlers ∧ (2 ≤ q.handlers.length → (∃ p' ∈ q.handlers, q.roster.isLive p' = true) →
      q.roster.isLive p = true) := by
  by_cases htwo : 2 ≤ q.handlers.length
  · rw [serve_of_two htwo] at h
    exact (mem_candidates (List.mem_of_getElem? h)).imp_right fun hlive _ ↦ hlive
  · rw [serve_of_fewer htwo] at h
    exact ⟨List.mem_of_head? h, fun htwo' ↦ absurd htwo' htwo⟩

/-! ## Many picks -/

/-- The turns taken after some picks. -/
def run (r : Rotation) (qs : List Request) : Rotation := qs.foldl (fun r q ↦ (r.serve q).2) r

/-- What was asked for, one after the other, each with who was picked. -/
def picks : Rotation → List Request → List (Request × Option PeerRef)
  | _, [] => []
  | r, q :: qs => (q, (r.serve q).1) :: (r.serve q).2.picks qs

/-- Who was picked at those requests that count. -/
def picked (r : Rotation) (counts : Request → Bool) (qs : List Request) : List (Option PeerRef) :=
  ((r.picks qs).filter fun pick ↦ counts pick.1).map Prod.snd

theorem picked_cons (r : Rotation) (counts : Request → Bool) (q : Request) (qs : List Request) :
    r.picked counts (q :: qs) =
      (if counts q then [(r.serve q).1] else []) ++ (r.serve q).2.picked counts qs := by
  rw [picked, picks, List.filter_cons]
  split <;> rfl

/-- The turns of a type that are taken. -/
def turnsTaken (type : MessageType) (qs : List Request) : Nat :=
  qs.countP fun q ↦ q.type = type ∧ 2 ≤ q.handlers.length

theorem turnsTaken_cons (type : MessageType) (q : Request) (qs : List Request) :
    turnsTaken type (q :: qs) = q.turns type + turnsTaken type qs := by
  rw [turnsTaken, List.countP_cons, Nat.add_comm, Request.turns]
  simp only [decide_eq_true_eq]
  rfl

/-- For each request that counts, the turns of a type that were taken before it, given those before
all of them. -/
def turnNumbers (type : MessageType) (counts : Request → Bool) : Nat → List Request → List Nat
  | _, [] => []
  | k, q :: qs => (if counts q then [k] else []) ++ turnNumbers type counts (k + q.turns type) qs

theorem turns_le_one (type : MessageType) (q : Request) : q.turns type ≤ 1 := by
  rw [Request.turns]
  split <;> decide

/-- A turn counter is the number of turns, up to full periods. -/
theorem turn_serve_of_turn {r : Rotation} {type : MessageType} {k : Nat}
    (h : r.turn type = k % period) (q : Request) :
    (r.serve q).2.turn type = (k + q.turns type) % period := by
  rw [turn_serve, h]
  split
  · next hone => rw [hone, Nat.mod_add_mod]
  · next hnone =>
    have hle := turns_le_one type q
    rw [show q.turns type = 0 by omega, Nat.add_zero]

theorem turn_run {r : Rotation} {type : MessageType} {k : Nat} (h : r.turn type = k % period)
    (qs : List Request) : (r.run qs).turn type = (k + turnsTaken type qs) % period := by
  induction qs generalizing r k with
  | nil => exact h
  | cons q qs ih =>
    refine (ih (turn_serve_of_turn h q)).trans ?_
    rw [turnsTaken_cons, Nat.add_assoc]

theorem turn_run_new (type : MessageType) (qs : List Request) :
    (run {} qs).turn type = turnsTaken type qs % period := by
  rw [turn_run (k := 0) rfl, Nat.zero_add]

/-- The turns taken before a pick say which of the candidates it is. -/
theorem picked_eq {r : Rotation} {type : MessageType} {k : Nat} (hturn : r.turn type = k % period)
    {counts : Request → Bool} {cs : List PeerRef} {qs : List Request}
    (hqs : ∀ q ∈ qs, counts q = true →
      q.type = type ∧ 2 ≤ q.handlers.length ∧ q.candidates = cs) :
    r.picked counts qs =
      (turnNumbers type counts k qs).map fun j ↦ cs[j % period % cs.length]? := by
  induction qs generalizing r k with
  | nil => rfl
  | cons q qs ih =>
    have hrest := ih (turn_serve_of_turn hturn q) fun q' hq' ↦
      hqs q' (List.mem_cons_of_mem _ hq')
    rw [turnNumbers, List.map_append, ← hrest, picked_cons]
    by_cases hcounts : counts q = true
    · obtain ⟨rfl, htwo, hsame⟩ := hqs q List.mem_cons_self hcounts
      rw [if_pos hcounts, if_pos hcounts, serve_of_two htwo, hsame, hturn]
      rfl
    · rw [if_neg hcounts, if_neg hcounts]
      rfl

theorem length_turnNumbers (type : MessageType) (counts : Request → Bool) (k : Nat)
    (qs : List Request) : (turnNumbers type counts k qs).length = qs.countP counts := by
  induction qs generalizing k with
  | nil => rfl
  | cons q qs ih =>
    rw [turnNumbers, List.length_append, ih, List.countP_cons, Nat.add_comm]
    split <;> rfl

/-- Where just the picks that take turns count, their numbers follow one another. -/
theorem turnNumbers_eq_range' {type : MessageType} {counts : Request → Bool} {qs : List Request}
    (h : ∀ q ∈ qs, q.turns type = if counts q then 1 else 0) (k : Nat) :
    turnNumbers type counts k qs = List.range' k (qs.countP counts) := by
  induction qs generalizing k with
  | nil => rfl
  | cons q qs ih =>
    have hrest := ih (fun q' hq' ↦ h q' (List.mem_cons_of_mem _ hq')) (k + q.turns type)
    rw [turnNumbers, hrest, h q List.mem_cons_self]
    by_cases hcounts : counts q = true
    · rw [if_pos hcounts, if_pos hcounts, List.countP_cons_of_pos hcounts, List.range'_succ]
      rfl
    · rw [if_neg hcounts, if_neg hcounts, List.countP_cons_of_neg hcounts]
      rfl

theorem turnsTaken_le (type : MessageType) (qs : List Request) :
    turnsTaken type qs ≤ qs.countP fun q ↦ q.type = type :=
  List.countP_mono_left fun _ _ hboth ↦ decide_eq_true (of_decide_eq_true hboth).1

/-- Turns that follow one another, as many as there are candidates, are one round, unless the count
starts again among them. -/
theorem perm_round (cs : List PeerRef) {k : Nat} (h : k + cs.length ≤ period) :
    ((List.range' k cs.length).map fun j ↦ cs[j % period % cs.length]?).Perm (cs.map some) := by
  have hround : ((List.range' k cs.length).map fun j ↦ cs[j % period % cs.length]?) =
      (cs.rotate k).map some := by
    refine List.ext_getElem (by simp) fun i hi _ ↦ ?_
    rw [List.length_map, List.length_range'] at hi
    have hlt : (k + i) % cs.length < cs.length := Nat.mod_lt _ (Nat.zero_lt_of_lt hi)
    have hperiod : (k + i) % period = k + i := Nat.mod_eq_of_lt (by omega)
    simp [List.getElem_rotate, Nat.add_comm i k, hlt, hperiod]
  rw [hround]
  exact (cs.rotate_perm k).map some

/-- **Handlers take turns.**  Let commands of any types be picked handlers for, `past` and then
`window`, fewer than `2 ^ 64` times for one type.  If at the picks for that type in the window there
are always at least two handlers, the candidates are always the same, and there are as many picks as
candidates, then they pick each candidate once.

Whatever was picked before, a pick yields nobody only if nobody handles the command; who is picked
handles it, and is up and responds if one of at least two handlers is up and responds. -/
theorem fair_of_run {past window : List Request} {type : MessageType} {cs : List PeerRef}
    (hfew : (past ++ window).countP (·.type = type) < period)
    (hmany : window.countP (·.type = type) = cs.length)
    (hsame : ∀ q ∈ window, q.type = type → 2 ≤ q.handlers.length ∧ q.candidates = cs) :
    ((run {} past).picked (·.type = type) window).Perm (cs.map some) ∧
    ∀ (r : Rotation) (q : Request),
      ((r.serve q).1 = none ↔ q.handlers = []) ∧
      ∀ p, (r.serve q).1 = some p → p ∈ q.handlers ∧ (2 ≤ q.handlers.length →
        (∃ p' ∈ q.handlers, (q.roster.contact p').up ∧ (q.roster.contact p').responding) →
          (q.roster.contact p).up ∧ (q.roster.contact p).responding) := by
  refine ⟨?_, fun r q ↦ ⟨serve_eq_none_iff r q, fun p hp ↦ ?_⟩⟩
  · have hpicked : (run {} past).picked (·.type = type) window =
        (turnNumbers type (·.type = type) (turnsTaken type past) window).map fun j ↦
          cs[j % period % cs.length]? :=
      picked_eq (turn_run_new type past) fun q hq htype ↦
        ⟨of_decide_eq_true htype, hsame q hq (of_decide_eq_true htype)⟩
    have hnumbers : turnNumbers type (·.type = type) (turnsTaken type past) window =
        List.range' (turnsTaken type past) cs.length := by
      rw [← hmany]
      refine turnNumbers_eq_range' (fun q hq ↦ ?_) _
      by_cases htype : q.type = type
      · rw [Request.turns, if_pos ⟨htype, (hsame q hq htype).1⟩, if_pos (decide_eq_true htype)]
      · rw [Request.turns, if_neg fun hboth ↦ htype hboth.1, if_neg (by simpa using htype)]
    have hle := turnsTaken_le type past
    rw [List.countP_append, hmany] at hfew
    rw [hpicked, hnumbers]
    exact perm_round cs (by omega)
  · obtain ⟨hmem, hlive⟩ := of_serve_eq_some hp
    refine ⟨hmem, fun htwo ⟨p', hmem', hlive'⟩ ↦ ?_⟩
    exact Bool.and_eq_true_iff.mp
      (hlive htwo ⟨p', hmem', Bool.and_eq_true_iff.mpr hlive'⟩)

/-- Three peers, of which the first does not respond. -/
def oneSilent : Roster :=
  ⟨#[{ endPoint := "tcp://h:1", responding := false }, { endPoint := "tcp://h:2" },
    { endPoint := "tcp://h:3" }]⟩

/-- A command of a type, with three handlers or with the last two of them. -/
def asks (type : String) (all : Bool) : Request :=
  ⟨⟨type⟩, (if all then [⟨⟨"Abc.H.0"⟩, 0⟩] else []) ++ [⟨⟨"Abc.H.1"⟩, 1⟩, ⟨⟨"Abc.H.2"⟩, 2⟩],
    oneSilent⟩

/-- After one turn, two picks with another type in between.  The handlers change, but not those that
respond, and each of these is picked once. -/
theorem picked_betweenOthers :
    ((run {} [asks "Tests.Cmd" true]).picked (·.type = ⟨"Tests.Cmd"⟩)
      [asks "Tests.Cmd" false, asks "Tests.Other" true, asks "Tests.Cmd" true]).Perm
        [some ⟨⟨"Abc.H.1"⟩, 1⟩, some ⟨⟨"Abc.H.2"⟩, 2⟩] :=
  (@fair_of_run _ _ _ [⟨⟨"Abc.H.1"⟩, 1⟩, ⟨⟨"Abc.H.2"⟩, 2⟩] (by decide) (by decide) (by decide)).1

end ServiceBus.Rotation
