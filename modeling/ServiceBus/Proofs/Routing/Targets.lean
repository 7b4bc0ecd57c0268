import Mathlib.Data.List.Nodup
import Mathlib.Data.List.Perm.Subperm
import ServiceBus.Proofs.Directory.Delivery
import ServiceBus.Proofs.Routing.Turns
import ServiceBus.Router

/-!
# Which handlers get the commands of a type

A router counts turns by the type of a command.  Commands of one type with other routing keys may
have other handlers, but they take turns from the same count.  So whether all handlers of one list
get commands does not hang on the number of these commands alone: it hangs on how many turns are
taken in between (`Router.chooses_all_iff`).

With nothing in between each of the handlers gets a command in its turn.  With one other turn after
each of its own, a list of two handlers always comes to the same one
(`Router.leavesOut_alternating`).
-/

set_option autoImplicit false

namespace ServiceBus.Router

open Directory

/-- A command that is to be routed, with the directory as it is then. -/
structure Dispatch where
  /-- The directory. -/
  view : View
  /-- What the command is routed by. -/
  topic : Topic

/-- The pick that the command asks for. -/
def Dispatch.request (d : Dispatch) : Rotation.Request :=
  ⟨d.topic.type, d.view.handlers d.topic, d.view.roster⟩

/-- The router after some commands. -/
def run (r : Router) (ds : List Dispatch) : Router :=
  ds.foldl (fun r d ↦ (r.commandTarget d.view d.topic).2.1) r

/-- Commands one after the other, each with its target. -/
def targets : Router → List Dispatch → List (Dispatch × Option PeerRef)
  | _, [] => []
  | r, d :: ds =>
    (d, (r.commandTarget d.view d.topic).1) :: (r.commandTarget d.view d.topic).2.1.targets ds

/-- Commands of one type with some routing keys, while the directory stays as it is. -/
def dispatches (v : View) (type : MessageType) (keys : List Key) : List Dispatch :=
  keys.map fun key ↦ ⟨v, type, key⟩

/-- The targets of those commands that have the given handlers. -/
def chosen (r : Router) (handlers : List PeerRef) (ds : List Dispatch) : List (Option PeerRef) :=
  ((r.targets ds).filter fun target ↦ target.1.view.handlers target.1.topic = handlers).map Prod.snd

/-! ## A router picks by its count of turns -/

theorem rotation_run (r : Router) (ds : List Dispatch) :
    (r.run ds).rotation = r.rotation.run (ds.map Dispatch.request) := by
  induction ds generalizing r with
  | nil => rfl
  | cons d ds ih => exact ih _

theorem chosen_eq_picked (r : Router) (handlers : List PeerRef) (ds : List Dispatch) :
    r.chosen handlers ds =
      r.rotation.picked (·.handlers = handlers) (ds.map Dispatch.request) := by
  induction ds generalizing r with
  | nil => rfl
  | cons d ds ih =>
    have hrest := ih (r.commandTarget d.view d.topic).2.1
    rw [chosen] at hrest
    rw [List.map_cons, Rotation.picked_cons, chosen, targets, List.filter_cons]
    by_cases hsame : decide (d.view.handlers d.topic = handlers) = true
    · rw [if_pos hsame, if_pos (show decide (d.request.handlers = handlers) = true from hsame),
        List.map_cons, hrest]
      rfl
    · rw [if_neg hsame, if_neg (show ¬ decide (d.request.handlers = handlers) = true from hsame),
        hrest]
      rfl

/-! ## When every place of a list is taken -/

/-- As many places as there are in a list are all of them if none is taken twice. -/
theorem nodup_iff_forall_mem {places : List Nat} (hlt : ∀ j ∈ places, j < places.length) :
    places.Nodup ↔ ∀ j < places.length, j ∈ places := by
  constructor
  · intro hnodup j hj
    have hsub : places ⊆ List.range places.length := fun i hi ↦ List.mem_range.mpr (hlt i hi)
    have hperm := (hnodup.subperm hsub).perm_of_length_le (by rw [List.length_range])
    exact hperm.mem_iff.mpr (List.mem_range.mpr hj)
  · intro hall
    have hsub : List.range places.length ⊆ places := fun i hi ↦ hall i (List.mem_range.mp hi)
    have hperm := (List.nodup_range.subperm hsub).perm_of_length_le (by rw [List.length_range])
    exact hperm.nodup_iff.mp List.nodup_range

/-- Everybody in a list is at one of as many places just if none is taken twice. -/
theorem forall_mem_places_iff {cs : List PeerRef} (hnodup : cs.Nodup) {places : List Nat}
    (hlength : places.length = cs.length) (hlt : ∀ j ∈ places, j < cs.length) :
    (∀ p ∈ cs, some p ∈ places.map (cs[·]?)) ↔ places.Nodup := by
  rw [nodup_iff_forall_mem (hlength ▸ hlt), hlength]
  constructor
  · intro hall j hj
    obtain ⟨i, hi, hsame⟩ := List.mem_map.mp (hall cs[j] (List.getElem_mem hj))
    obtain ⟨hi', heq⟩ := List.getElem?_eq_some_iff.mp hsame
    obtain rfl : i = j := hnodup.getElem_inj_iff.mp heq
    exact hi
  · intro hall p hp
    obtain ⟨j, hj, rfl⟩ := List.getElem_of_mem hp
    exact List.mem_map.mpr ⟨j, hall j hj, List.getElem?_eq_getElem hj⟩

/-! ## Who is chosen -/

/-- How many turns of a type some commands take. -/
def turnsTaken (type : MessageType) (ds : List Dispatch) : Nat :=
  Rotation.turnsTaken type (ds.map Dispatch.request)

/-- For each command that has the given handlers, the turns of a type that were taken before it. -/
def turnNumbers (type : MessageType) (handlers : List PeerRef) (before : Nat) (ds : List Dispatch) :
    List Nat :=
  Rotation.turnNumbers type (·.handlers = handlers) before (ds.map Dispatch.request)

theorem countP_dispatches (v : View) (type : MessageType) (handlers : List PeerRef)
    (keys : List Key) :
    ((dispatches v type keys).map Dispatch.request).countP (·.handlers = handlers) =
      keys.countP fun key ↦ v.handlers ⟨type, key⟩ = handlers := by
  rw [dispatches, List.countP_map, List.countP_map]
  rfl

/-- The turns taken before say which of the live handlers gets a command. -/
theorem chosen_eq {past : List Dispatch} {v : View} {type : MessageType} {keys : List Key}
    {handlers : List PeerRef} (htwo : 2 ≤ (handlers.filter v.roster.isLive).length) :
    (run {} past).chosen handlers (dispatches v type keys) =
      (turnNumbers type handlers (turnsTaken type past) (dispatches v type keys)).map fun turn ↦
        (handlers.filter v.roster.isLive)[
          turn % Rotation.period % (handlers.filter v.roster.isLive).length]? := by
  have hturn : (run {} past).rotation.turn type = turnsTaken type past % Rotation.period := by
    rw [rotation_run]
    exact Rotation.turn_run_new type _
  rw [chosen_eq_picked]
  refine Rotation.picked_eq hturn fun q hq hsame ↦ ?_
  obtain ⟨d, hd, rfl⟩ := List.mem_map.mp hq
  obtain ⟨key, -, rfl⟩ := List.mem_map.mp hd
  have hhandlers : v.handlers ⟨type, key⟩ = handlers := of_decide_eq_true hsame
  refine ⟨rfl, ?_, ?_⟩
  · show 2 ≤ (v.handlers ⟨type, key⟩).length
    rw [hhandlers]
    exact Nat.le_trans htwo (List.length_filter_le ..)
  · show Rotation.candidates v.roster.isLive (v.handlers ⟨type, key⟩) = _
    rw [hhandlers]
    have hsome : 0 < (handlers.filter v.roster.isLive).length := by omega
    exact Rotation.candidates_of_live (List.ne_nil_of_length_pos hsome)

/-- If no others take turns in between, the turns follow one another. -/
theorem turnNumbers_of_alone {v : View} {type : MessageType} {keys : List Key}
    {handlers : List PeerRef} (hlong : 2 ≤ handlers.length)
    (hothers : ∀ key ∈ keys,
      v.handlers ⟨type, key⟩ = handlers ∨ (v.handlers ⟨type, key⟩).length < 2) (before : Nat) :
    turnNumbers type handlers before (dispatches v type keys) =
      List.range' before (keys.countP fun key ↦ v.handlers ⟨type, key⟩ = handlers) := by
  rw [← countP_dispatches]
  refine Rotation.turnNumbers_eq_range' (fun q hq ↦ ?_) _
  obtain ⟨d, hd, rfl⟩ := List.mem_map.mp hq
  obtain ⟨key, hkey, rfl⟩ := List.mem_map.mp hd
  show (if type = type ∧ 2 ≤ (v.handlers ⟨type, key⟩).length then 1 else 0) =
    if decide (v.handlers ⟨type, key⟩ = handlers) = true then 1 else 0
  obtain hsame | hshort := hothers key hkey
  · rw [hsame, if_pos ⟨rfl, hlong⟩, if_pos (decide_eq_true rfl)]
  · have hother : v.handlers ⟨type, key⟩ ≠ handlers := fun hsame ↦ by
      rw [hsame] at hshort
      omega
    rw [if_neg (by omega), if_neg (by simpa using hother)]

/-- **When all live handlers of a list get commands.**  Let a router be used in any way, and then
route commands of one type while the directory stays as it is.  Take some live handlers of a list,
at least two, and as many commands in a row that have this list, with any others in between.

* Each of these handlers is chosen for one of those commands just if the turns that were taken before
  them, counted by the type, all differ modulo the number of these handlers.
* So it is, while the count does not start again, if no others take turns in between. -/
theorem chooses_all_iff {past : List Dispatch} {v : View} {type : MessageType} {keys : List Key}
    {handlers : List PeerRef} (hnodup : (handlers.filter v.roster.isLive).Nodup)
    (htwo : 2 ≤ (handlers.filter v.roster.isLive).length)
    (hmany : keys.countP (fun key ↦ v.handlers ⟨type, key⟩ = handlers) =
      (handlers.filter v.roster.isLive).length) :
    let n := (handlers.filter v.roster.isLive).length
    let targets := (run {} past).chosen handlers (dispatches v type keys)
    ((∀ p ∈ handlers, v.roster.isLive p = true → some p ∈ targets) ↔
      ((turnNumbers type handlers (turnsTaken type past) (dispatches v type keys)).map
        fun turn ↦ turn % Rotation.period % n).Nodup) ∧
    ((∀ key ∈ keys, v.handlers ⟨type, key⟩ = handlers ∨ (v.handlers ⟨type, key⟩).length < 2) →
      turnsTaken type past + n ≤ Rotation.period →
        ∀ p ∈ handlers, v.roster.isLive p = true → some p ∈ targets) := by
  intro n targets
  have hlive : (∀ p ∈ handlers, v.roster.isLive p = true → some p ∈ targets) ↔
      ∀ p ∈ handlers.filter v.roster.isLive, some p ∈ targets := by
    simp only [List.mem_filter, and_imp]
  refine ⟨?_, fun hothers hperiod ↦ ?_⟩
  · rw [hlive, show targets = _ from chosen_eq htwo, ← forall_mem_places_iff hnodup, List.map_map]
    · rfl
    · rw [List.length_map]
      exact (Rotation.length_turnNumbers ..).trans ((countP_dispatches ..).trans hmany)
    · intro j hj
      obtain ⟨turn, -, rfl⟩ := List.mem_map.mp hj
      exact Nat.mod_lt _ (Nat.lt_of_lt_of_le (by decide) htwo)
  · have hlong : 2 ≤ handlers.length := Nat.le_trans htwo (List.length_filter_le ..)
    rw [hlive, show targets = _ from chosen_eq htwo, turnNumbers_of_alone hlong hothers, hmany]
    exact fun p hp ↦ (Rotation.perm_round _ hperiod).mem_iff.mpr (List.mem_map_of_mem hp)

/-! ## Two routing keys -/

/-- The type of some commands. -/
def moveShip : MessageType := ⟨"Tests.MoveShip"⟩

/-- A routing key of theirs. -/
def north : Key := ⟨["north"], false⟩

/-- Another one. -/
def south : Key := ⟨["south"], false⟩

/-- A peer starts that asks for the commands with one routing key. -/
def sails (id : String) (waters : Key) : Act :=
  .event (.started ⟨{
    peer := .live ⟨id⟩ ("tcp://" ++ id ++ ":1")
    subscriptions := [⟨moveShip, waters⟩] }⟩)

/-- What a client knows when two peers have started for each of the routing keys. -/
def fleet : View :=
  (Situation.inMarch.run [sails "Abc.A.0" north, sails "Abc.B.0" north, sails "Abc.C.0" south,
    sails "Abc.D.0" south]).client.registry.view

/-- With two turns of the other key in between, both peers get a command. -/
theorem chooses_both_acrossTwo :
    let targets := chosen {} (fleet.handlers ⟨moveShip, north⟩)
      (dispatches fleet moveShip [north, south, south, north])
    some ⟨⟨"Abc.A.0"⟩, 0⟩ ∈ targets ∧ some ⟨⟨"Abc.B.0"⟩, 1⟩ ∈ targets := by
  have hall := (@chooses_all_iff [] fleet moveShip [north, south, south, north]
    (fleet.handlers ⟨moveShip, north⟩) (by decide) (by decide) (by decide)).1.mpr (by decide)
  exact ⟨hall ⟨⟨"Abc.A.0"⟩, 0⟩ (by decide) (by decide),
    hall ⟨⟨"Abc.B.0"⟩, 1⟩ (by decide) (by decide)⟩

/-- **A handler can be left out by commands with another routing key.**  Two peers are up and respond
to the commands with one routing key.  With one turn of the other key in between, the two commands in
a row that have these handlers go to the first of them, and the second gets none. -/
theorem leavesOut_alternating :
    let handlers := fleet.handlers ⟨moveShip, north⟩
    let keys := [north, south, north]
    handlers = [⟨⟨"Abc.A.0"⟩, 0⟩, ⟨⟨"Abc.B.0"⟩, 1⟩] ∧
    (∀ p ∈ handlers, fleet.roster.isLive p = true) ∧
    keys.countP (fun key ↦ fleet.handlers ⟨moveShip, key⟩ = handlers) = handlers.length ∧
    chosen {} handlers (dispatches fleet moveShip keys) =
      [some ⟨⟨"Abc.A.0"⟩, 0⟩, some ⟨⟨"Abc.A.0"⟩, 0⟩] := by
  decide

end ServiceBus.Router
