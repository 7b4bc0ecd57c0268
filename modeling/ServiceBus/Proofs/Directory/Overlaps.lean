import ServiceBus.Proofs.Directory.Registration

/-!
# Registrations that overlap

Nothing keeps an application from registering a second time while the first registration is going
on.  `Registrations` is a client with all its calls to register, each at a `Stage` of its own, and a
`Happening` is the next thing that happens: an event comes in, a call begins, or one of the calls
goes on.  A batch of events is applied at one go, for nothing else is let in until it is done.

All calls share what is held back.  Each begins with holding nothing back yet, whatever was held
back then, and the first that finds nothing to take out holds back no more, whoever else is still
asking.  So events can get lost, and they can be applied too early.  `account_run` is the exact
account: an event that came in was applied, is waiting to be applied, or was held back when a call
began.  If no call begins as long as events are held back, nothing is lost, the order is kept, and
nothing is applied while a server is asked.
-/

set_option autoImplicit false

namespace ServiceBus.Directory

/-! ## Calls that go on side by side -/

/-- The events of a batch that is to be applied. -/
def Stage.batch : Stage → List Event
  | applying _ batch => batch
  | _ => []

/-- The call has returned. -/
def Stage.HasReturned : Stage → Prop
  | returned _ => True
  | _ => False

/-- The event that a deed applies. -/
def Deed.event? : Deed → Option Event
  | apply e => some e
  | _ => none

namespace Registration

/-- How a call goes on.  A batch is applied at one go. -/
def advance : Registration → Moment → Option Registration
  | ⟨c, .asking a⟩, .answer answer now => some (answered c a answer now)
  | ⟨c, .settling result⟩, .take => some (take c result)
  | ⟨c, .applying result batch⟩, .apply =>
    some ⟨{ c with registry := (c.registry.applyAll batch).1 }, .settling result⟩
  | _, _ => none

/-- What a call does to the registry when it goes on. -/
def deeds : Registration → Moment → List Deed
  | ⟨_, .asking _⟩, .answer answer _ => (answer.taken?.getD []).map .learn
  | ⟨_, .applying _ batch⟩, .apply => batch.map .apply
  | _, _ => []

/-- To apply a batch at one go is to apply its events one after the other. -/
theorem run_apply (c : Client) (result : Except Failure Unit) (batch : List Event) :
    run ⟨c, .applying result batch⟩ (List.replicate (batch.length + 1) .apply) =
      advance ⟨c, .applying result batch⟩ .apply := by
  induction batch generalizing c with
  | nil => rfl
  | cons e batch ih => exact ih { c with registry := (c.registry.apply e).1 }

/-- What is waiting to be applied on behalf of one call. -/
def waiting (r : Registration) : List Event := r.stage.batch ++ r.client.held.getD []

theorem client_ask (c : Client) (command : Command) (selection rest : List Peer) :
    (ask c command selection rest).client = c := by
  cases rest <;> rfl

theorem batch_ask (c : Client) (command : Command) (selection rest : List Peer) :
    (ask c command selection rest).stage.batch = [] := by
  cases rest <;> rfl

/-- What holds of a call that goes on: what was waiting is applied or is waiting still, in its
order, and only a call that returns holds back no more. -/
structure GoesOn (r r' : Registration) (deeds : List Deed) : Prop where
  /-- The call had not returned. -/
  not_returned : ¬ r.stage.HasReturned
  /-- What is applied comes first. -/
  waiting : r.waiting = deeds.filterMap Deed.event? ++ r'.waiting
  /-- Events are held back until the call returns. -/
  held : r'.client.held = none → r.client.held = none ∨ r'.stage.HasReturned
  /-- The registry changes by the deeds. -/
  registry : r'.client.registry = Deed.performAll r.client.registry deeds

theorem filterMap_learn (ds : List (Descriptor Peer)) :
    (ds.map Deed.learn).filterMap Deed.event? = [] := by
  rw [List.filterMap_map, List.filterMap_eq_nil_iff]
  exact fun _ _ ↦ rfl

theorem filterMap_apply (es : List Event) : (es.map Deed.apply).filterMap Deed.event? = es := by
  rw [List.filterMap_map]
  exact List.filterMap_some

theorem goesOn_answered (c : Client) (a : Attempt) (answer : Answer) (now : Nat) :
    GoesOn ⟨c, .asking a⟩ (answered c a answer now)
      (deeds ⟨c, .asking a⟩ (.answer answer now)) := by
  cases htaken : answer.taken? with
  | some known =>
    rw [answered, deeds, htaken]
    refine ⟨not_false, ?_, Or.inl, (Deed.performAll_learn c.registry known).symm⟩
    rw [Option.getD_some, filterMap_learn]
    rfl
  | none =>
    rw [answered, deeds, htaken]
    refine ⟨not_false, ?_, fun hheld ↦ Or.inl ?_, ?_⟩
    · rw [waiting, waiting, client_ask, batch_ask]
      rfl
    · rwa [client_ask] at hheld
    · rw [client_ask]
      rfl

theorem goesOn_take (c : Client) (result : Except Failure Unit) :
    GoesOn ⟨c, .settling result⟩ (take c result) [] := by
  rw [take]
  split
  · next hheld =>
    refine ⟨not_false, ?_, fun _ ↦ Or.inr trivial, rfl⟩
    rw [waiting, hheld]
    rfl
  · next batch hbatch =>
    refine ⟨not_false, ?_, fun hheld ↦ (by cases hheld), rfl⟩
    simp [waiting, Stage.batch]

theorem goesOn_apply (c : Client) (result : Except Failure Unit) (batch : List Event) :
    GoesOn ⟨c, .applying result batch⟩
      ⟨{ c with registry := (c.registry.applyAll batch).1 }, .settling result⟩
      (batch.map .apply) := by
  refine ⟨not_false, ?_, Or.inl, (Deed.performAll_apply c.registry batch).symm⟩
  rw [filterMap_apply]
  rfl

theorem goesOn_advance {r r' : Registration} {m : Moment} (h : r.advance m = some r') :
    GoesOn r r' (r.deeds m) := by
  unfold advance at h
  split at h
  · obtain rfl := Option.some.inj h
    exact goesOn_answered ..
  · obtain rfl := Option.some.inj h
    exact goesOn_take ..
  · obtain rfl := Option.some.inj h
    exact goesOn_apply ..
  · cases h

theorem deeds_of_not_advance {r : Registration} {m : Moment} (h : r.advance m = none) :
    r.deeds m = [] := by
  unfold advance at h
  split at h
  · cases h
  · cases h
  · cases h
  · next hask htake happly =>
    unfold deeds
    split
    · exact absurd rfl (hask _ _ _ _ rfl)
    · exact absurd rfl (happly _ _ _ rfl)
    · rfl

end Registration

/-- The registrations of a client. -/
structure Registrations where
  /-- The client. -/
  client : Client
  /-- How far each call is, in the order in which they began. -/
  calls : List Stage := []

/-- What happens next to the registrations of a client. -/
inductive Happening
  /-- An event comes in. -/
  | event (e : Event)
  /-- A call begins. -/
  | begin (self : PeerRef) (ss : List Subscription) (now seed : Nat)
  /-- A call goes on. -/
  | goOn (place : Nat) (m : Moment)

/-- The event that comes in. -/
def Happening.event? : Happening → Option Event
  | event e => some e
  | _ => none

/-- All events that come in, in their order. -/
def Happening.events (hs : List Happening) : List Event := hs.filterMap event?

theorem Happening.events_cons (h : Happening) (hs : List Happening) :
    events (h :: hs) = h.event?.toList ++ events hs := by
  rw [events, List.filterMap_cons]
  cases h.event? <;> rfl

namespace Registrations

open Registration (begin? advance GoesOn)

/-- The registrations after a happening.  A call without a timestamp breaks off at once, and what
does not fit the stage of a call changes nothing. -/
def step (s : Registrations) : Happening → Registrations
  | .event e => { s with client := (s.client.handle e).1 }
  | .begin self ss now seed =>
    match begin? s.client self ss now seed with
    | some r => ⟨r.client, s.calls ++ [r.stage]⟩
    | none => { s with client := (s.client.beginRegister self ss now seed).1 }
  | .goOn place m =>
    match (s.calls[place]?).bind fun stage ↦ advance ⟨s.client, stage⟩ m with
    | some r => ⟨r.client, s.calls.set place r.stage⟩
    | none => s

/-- The registrations after several happenings. -/
def run (s : Registrations) (hs : List Happening) : Registrations := hs.foldl step s

theorem run_cons (s : Registrations) (h : Happening) (hs : List Happening) :
    s.run (h :: hs) = (s.step h).run hs := rfl

/-- What a happening does to the registry. -/
def deeds (s : Registrations) : Happening → List Deed
  | .event e => s.client.deedsOfEvent e
  | .begin self ss _ _ => s.client.deedsOfCall (.register self ss)
  | .goOn place m => (s.calls[place]?).elim [] fun stage ↦ Registration.deeds ⟨s.client, stage⟩ m

/-- What several happenings do to the registry. -/
def deedsOfRun : Registrations → List Happening → List Deed
  | _, [] => []
  | s, h :: hs => s.deeds h ++ (s.step h).deedsOfRun hs

/-- The events that are applied, in the order in which they are. -/
def applied (s : Registrations) (hs : List Happening) : List Event :=
  (s.deedsOfRun hs).filterMap Deed.event?

/-- The events that are waiting to be applied: those of the batches, and what is held back. -/
def waiting (s : Registrations) : List Event :=
  s.calls.flatMap Stage.batch ++ s.client.held.getD []

/-- The events that are held back when a call begins, which are lost. -/
def lostAt (s : Registrations) : Happening → List Event
  | .begin .. => s.client.held.getD []
  | _ => []

theorem lostAt_event (s : Registrations) (e : Event) : s.lostAt (.event e) = [] := rfl

theorem lostAt_goOn (s : Registrations) (place : Nat) (m : Moment) :
    s.lostAt (.goOn place m) = [] := rfl

/-- The events that several happenings lose. -/
def lost : Registrations → List Happening → List Event
  | _, [] => []
  | s, h :: hs => s.lostAt h ++ (s.step h).lost hs

/-! ## What a happening does -/

/-- A call that begins holds back whatever comes in, and nothing else. -/
theorem step_begin (s : Registrations) (self : PeerRef) (ss : List Subscription)
    (now seed : Nat) :
    (s.step (.begin self ss now seed)).client.held = some [] ∧
    (s.step (.begin self ss now seed)).client.registry =
      Deed.performAll s.client.registry (s.deeds (.begin self ss now seed)) ∧
    ∃ calls, (s.step (.begin self ss now seed)).calls = s.calls ++ calls ∧
      calls.flatMap Stage.batch = [] ∧ calls.length ≤ 1 := by
  rw [step, deeds, Client.deedsOfCall, begin?]
  by_cases hstamp : s.client.stamp.1 = none
  · have hbegin : (Client.stamp { s.client with held := some [], standing := .registering }).1 =
        none := hstamp
    rw [if_pos hstamp, if_pos hstamp]
    dsimp only
    rw [Client.beginRegister]
    dsimp only
    rw [if_pos hbegin]
    exact ⟨rfl, rfl, [], by simp, rfl, by simp⟩
  · rw [if_neg hstamp, if_neg hstamp]
    dsimp only
    rw [Registration.client_ask]
    refine ⟨rfl, rfl, _, rfl, ?_, by simp⟩
    rw [List.flatMap_singleton, Registration.batch_ask]

/-- A call goes on, or what happens does not fit its stage. -/
theorem step_goOn (s : Registrations) (place : Nat) (m : Moment) :
    (s.step (.goOn place m) = s ∧ s.deeds (.goOn place m) = []) ∨
    ∃ stage r, s.calls[place]? = some stage ∧
      s.step (.goOn place m) = ⟨r.client, s.calls.set place r.stage⟩ ∧
      GoesOn ⟨s.client, stage⟩ r (s.deeds (.goOn place m)) := by
  rw [step, deeds]
  cases hstage : s.calls[place]? with
  | none => exact Or.inl ⟨rfl, rfl⟩
  | some stage =>
    rw [Option.bind_some, Option.elim_some]
    cases hadvance : advance ⟨s.client, stage⟩ m with
    | none => exact Or.inl ⟨rfl, Registration.deeds_of_not_advance hadvance⟩
    | some r => exact Or.inr ⟨stage, r, rfl, rfl, Registration.goesOn_advance hadvance⟩

theorem registry_step (s : Registrations) (h : Happening) :
    (s.step h).client.registry = Deed.performAll s.client.registry (s.deeds h) := by
  cases h with
  | event e => exact Client.registry_handle s.client e
  | begin self ss now seed => exact (s.step_begin self ss now seed).2.1
  | goOn place m =>
    obtain ⟨hstep, hdeeds⟩ | ⟨stage, r, -, hstep, hgoes⟩ := s.step_goOn place m
    · rw [hstep, hdeeds]
      rfl
    · rw [hstep]
      exact hgoes.registry

/-- The registry changes by what is done to it, and by nothing else. -/
theorem registry_run (s : Registrations) (hs : List Happening) :
    (s.run hs).client.registry = Deed.performAll s.client.registry (s.deedsOfRun hs) := by
  induction hs generalizing s with
  | nil => rfl
  | cons h hs ih =>
    rw [deedsOfRun, Deed.performAll_append, ← registry_step]
    exact ih (s.step h)

theorem applied_cons (s : Registrations) (h : Happening) (hs : List Happening) :
    s.applied (h :: hs) = s.applied [h] ++ (s.step h).applied hs := by
  rw [applied, deedsOfRun, List.filterMap_append, applied, deedsOfRun, deedsOfRun, List.append_nil]
  rfl

theorem applied_singleton (s : Registrations) (h : Happening) :
    s.applied [h] = (s.deeds h).filterMap Deed.event? := by
  rw [applied, deedsOfRun, deedsOfRun, List.append_nil]

theorem applied_event (s : Registrations) (e : Event) :
    s.applied [.event e] = if s.client.held = none then [e] else [] := by
  rw [applied_singleton, deeds, Client.deedsOfEvent]
  cases s.client.held <;> rfl

theorem applied_begin (s : Registrations) (self : PeerRef) (ss : List Subscription)
    (now seed : Nat) : s.applied [.begin self ss now seed] = [] := by
  rw [applied_singleton, deeds, Client.deedsOfCall]
  split <;> rfl

theorem waiting_event (s : Registrations) (e : Event) :
    s.applied [.event e] ++ (s.step (.event e)).waiting =
      if s.client.held = none then e :: s.waiting else s.waiting ++ [e] := by
  rw [applied_event, waiting, waiting, step]
  cases hheld : s.client.held with
  | none =>
    rw [Client.handle_of_not_held hheld]
    simp [hheld]
  | some held =>
    rw [Client.handle_of_held hheld]
    simp

theorem flatMap_batch_set {calls : List Stage} {place : Nat} {stage : Stage}
    (h : calls[place]? = some stage) (stage' : Stage) :
    calls.flatMap Stage.batch =
      (calls.take place).flatMap Stage.batch ++
        (stage.batch ++ (calls.drop (place + 1)).flatMap Stage.batch) ∧
    (calls.set place stage').flatMap Stage.batch =
      (calls.take place).flatMap Stage.batch ++
        (stage'.batch ++ (calls.drop (place + 1)).flatMap Stage.batch) := by
  obtain ⟨hplace, rfl⟩ := List.getElem?_eq_some_iff.mp h
  constructor
  · rw [← List.flatMap_cons, ← List.drop_eq_getElem_cons hplace, ← List.flatMap_append,
      List.take_append_drop]
  · rw [List.set_eq_take_append_cons_drop, if_pos hplace, List.flatMap_append, List.flatMap_cons]

/-! ## Every event once -/

/-- **Each event is accounted for once**: it is applied, or waiting, or lost. -/
theorem perm_step (s : Registrations) (h : Happening) :
    (s.waiting ++ h.event?.toList).Perm
      (s.applied [h] ++ s.lostAt h ++ (s.step h).waiting) := by
  cases h with
  | event e =>
    rw [lostAt_event, List.append_nil, waiting_event]
    split
    · exact List.perm_append_comm
    · exact .refl _
  | begin self ss now seed =>
    obtain ⟨hheld, -, calls, hcalls, hbatch, -⟩ := s.step_begin self ss now seed
    rw [applied_begin, lostAt, waiting, waiting, hheld, hcalls, List.flatMap_append, hbatch]
    simpa [Happening.event?] using List.perm_append_comm
  | goOn place m =>
    rw [lostAt_goOn, List.append_nil, applied_singleton]
    obtain ⟨hstep, hdeeds⟩ | ⟨stage, r, hstage, hstep, hgoes⟩ := s.step_goOn place m
    · rw [hstep, hdeeds]
      simp [Happening.event?]
    · obtain ⟨hbefore, hafter⟩ := flatMap_batch_set hstage r.stage
      have hcall := hgoes.waiting
      rw [hstep, waiting, waiting, hbefore, hafter, List.perm_iff_count]
      intro e
      have hcount := congrArg (List.count e) hcall
      simp only [Registration.waiting, List.count_append] at hcount
      simp only [Happening.event?, Option.toList_none, List.append_nil, List.count_append]
      omega

theorem perm_run (s : Registrations) (hs : List Happening) :
    (s.waiting ++ Happening.events hs).Perm
      (s.applied hs ++ s.lost hs ++ (s.run hs).waiting) := by
  induction hs generalizing s with
  | nil => simp [Happening.events, applied, deedsOfRun, lost, run]
  | cons h hs ih =>
    have hfirst := s.perm_step h
    have hrest := ih (s.step h)
    rw [List.perm_iff_count] at hfirst hrest ⊢
    intro e
    have hfirst := hfirst e
    have hrest := hrest e
    rw [Happening.events_cons, applied_cons, lost, run_cons]
    simp only [List.count_append] at hfirst hrest ⊢
    omega

/-- Events are lost only where a call begins while they are held back. -/
theorem lost_eq_nil_iff (s : Registrations) (hs : List Happening) :
    s.lost hs = [] ↔
      ∀ before self ss now seed after, hs = before ++ .begin self ss now seed :: after →
        (s.run before).client.held.getD [] = [] := by
  induction hs generalizing s with
  | nil => simp [lost]
  | cons h hs ih =>
    rw [lost, List.append_eq_nil_iff, ih]
    constructor
    · rintro ⟨hfirst, hrest⟩ before self ss now seed after heq
      cases before with
      | nil =>
        rw [(List.cons.inj heq).1] at hfirst
        exact hfirst
      | cons h' before =>
        obtain ⟨rfl, rfl⟩ := List.cons.inj heq
        exact hrest before self ss now seed after rfl
    · intro hall
      refine ⟨?_, fun before self ss now seed after heq ↦ ?_⟩
      · cases h with
        | begin self ss now seed => exact hall [] self ss now seed hs rfl
        | event e => rfl
        | goOn place m => rfl
      · exact hall (h :: before) self ss now seed after (heq ▸ rfl)

/-! ## One call at a time -/

/-- A call may begin unless events are held back; anything else may happen at any time. -/
def MayCome (s : Registrations) : Happening → Prop
  | .begin .. => s.client.held = none
  | _ => True

/-- No call begins as long as events are held back. -/
def OneAtATime : Registrations → List Happening → Prop
  | _, [] => True
  | s, h :: hs => s.MayCome h ∧ (s.step h).OneAtATime hs

theorem OneAtATime.left {s : Registrations} {hs hs' : List Happening}
    (h : s.OneAtATime (hs ++ hs')) : s.OneAtATime hs := by
  induction hs generalizing s with
  | nil => trivial
  | cons act hs ih => exact ⟨h.1, ih h.2⟩

/-- At most one call has not returned, and as long as it has not, events are held back. -/
structure InTurn (s : Registrations) : Prop where
  /-- There is at most one. -/
  eq_of_not_returned : ∀ (i j : Nat) (stage stage' : Stage), s.calls[i]? = some stage →
    s.calls[j]? = some stage' → ¬ stage.HasReturned → ¬ stage'.HasReturned → i = j
  /-- If nothing is held back, all calls have returned. -/
  returned : s.client.held = none → ∀ stage ∈ s.calls, stage.HasReturned

theorem batch_of_hasReturned {stage : Stage} (h : stage.HasReturned) : stage.batch = [] := by
  cases stage with
  | applying result batch => exact h.elim
  | _ => rfl

theorem flatMap_batch_of_returned {calls : List Stage} (h : ∀ stage ∈ calls, stage.HasReturned) :
    calls.flatMap Stage.batch = [] :=
  List.flatMap_eq_nil_iff.mpr fun stage hstage ↦ batch_of_hasReturned (h stage hstage)

namespace InTurn

variable {s : Registrations}

/-- All calls but the one have returned. -/
theorem others (h : s.InTurn) {place : Nat} {stage : Stage} (hstage : s.calls[place]? = some stage)
    (hnot : ¬ stage.HasReturned) :
    (∀ other ∈ s.calls.take place, other.HasReturned) ∧
      ∀ other ∈ s.calls.drop (place + 1), other.HasReturned := by
  refine ⟨fun other hother ↦ ?_, fun other hother ↦ ?_⟩
  · obtain ⟨i, hi, rfl⟩ := List.mem_take_iff_getElem.mp hother
    by_contra hnot'
    have hi' := h.eq_of_not_returned i place _ _ (List.getElem?_eq_getElem _) hstage hnot' hnot
    omega
  · obtain ⟨i, hi, rfl⟩ := List.mem_drop_iff_getElem.mp hother
    by_contra hnot'
    have hi' := h.eq_of_not_returned _ place _ _ (List.getElem?_eq_getElem _) hstage hnot' hnot
    omega

/-- What is waiting is what waits on behalf of that call. -/
theorem waiting_set (h : s.InTurn) {place : Nat} {stage : Stage}
    (hstage : s.calls[place]? = some stage) (hnot : ¬ stage.HasReturned) (r : Registration) :
    s.waiting = Registration.waiting ⟨s.client, stage⟩ ∧
      waiting ⟨r.client, s.calls.set place r.stage⟩ = r.waiting := by
  obtain ⟨hbefore, hafter⟩ := flatMap_batch_set hstage r.stage
  obtain ⟨htake, hdrop⟩ := h.others hstage hnot
  rw [waiting, waiting, hbefore, hafter, flatMap_batch_of_returned htake,
    flatMap_batch_of_returned hdrop]
  simp [Registration.waiting]

theorem waiting_of_not_held (h : s.InTurn) (hheld : s.client.held = none) : s.waiting = [] := by
  rw [waiting, hheld, flatMap_batch_of_returned (h.returned hheld)]
  rfl

theorem event (h : s.InTurn) (e : Event) : (s.step (.event e)).InTurn := by
  refine ⟨h.eq_of_not_returned, fun hheld ↦ h.returned ?_⟩
  rw [step] at hheld
  cases hbefore : s.client.held with
  | none => rfl
  | some held =>
    rw [Client.handle_of_held hbefore] at hheld
    cases hheld

/-- The call that begins is the only one that has not returned. -/
theorem begin (h : s.InTurn) (hheld : s.client.held = none) (self : PeerRef)
    (ss : List Subscription) (now seed : Nat) : (s.step (.begin self ss now seed)).InTurn := by
  obtain ⟨hheld', -, calls, hcalls, -, hlength⟩ := s.step_begin self ss now seed
  have hlast : ∀ i stage, (s.calls ++ calls)[i]? = some stage → ¬ stage.HasReturned →
      i = s.calls.length := by
    intro i stage hstage hnot
    rw [List.getElem?_append] at hstage
    split at hstage
    · exact absurd (h.returned hheld stage (List.mem_of_getElem? hstage)) hnot
    · have hbound := (List.getElem?_eq_some_iff.mp hstage).1
      omega
  refine ⟨fun i j stage stage' hi hj hnot hnot' ↦ ?_, fun hnone ↦ ?_⟩
  · rw [hcalls] at hi hj
    rw [hlast i stage hi hnot, hlast j stage' hj hnot']
  · rw [hheld'] at hnone
    cases hnone

theorem goOn (h : s.InTurn) (place : Nat) (m : Moment) : (s.step (.goOn place m)).InTurn := by
  obtain ⟨hstep, -⟩ | ⟨stage, r, hstage, hstep, hgoes⟩ := s.step_goOn place m
  · rwa [hstep]
  · -- the call that goes on is the one that had not returned, and it stays where it is
    have hplace : ∀ i other, (s.calls.set place r.stage)[i]? = some other → i ≠ place →
        other.HasReturned := by
      intro i other hother hne
      rw [List.getElem?_set_ne (Ne.symm hne)] at hother
      by_contra hnot
      exact hne (h.eq_of_not_returned i place other stage hother hstage hnot hgoes.not_returned)
    rw [hstep]
    refine ⟨fun i j other other' hi hj hnot hnot' ↦ ?_, fun hheld other hother ↦ ?_⟩
    · have hi' : i = place := by
        by_contra hne
        exact hnot (hplace i other hi hne)
      have hj' : j = place := by
        by_contra hne
        exact hnot' (hplace j other' hj hne)
      rw [hi', hj']
    · obtain ⟨i, hi⟩ := List.mem_iff_getElem?.mp hother
      by_cases hne : i = place
      · subst hne
        rw [List.getElem?_set_self (List.getElem?_eq_some_iff.mp hstage).1] at hi
        obtain rfl := Option.some.inj hi
        refine (hgoes.held hheld).resolve_left fun hbefore ↦ hgoes.not_returned ?_
        exact h.returned hbefore stage (List.mem_of_getElem? hstage)
      · exact hplace i other hi hne

theorem step (h : s.InTurn) {act : Happening} (hmay : s.MayCome act) : (s.step act).InTurn := by
  cases act with
  | event e => exact h.event e
  | begin self ss now seed => exact h.begin hmay self ss now seed
  | goOn place m => exact h.goOn place m

/-- The order is kept. -/
theorem waiting_step (h : s.InTurn) {act : Happening} (hmay : s.MayCome act) :
    s.applied [act] ++ (s.step act).waiting = s.waiting ++ act.event?.toList := by
  cases act with
  | event e =>
    rw [waiting_event]
    split
    · next hheld =>
      rw [h.waiting_of_not_held hheld]
      rfl
    · rfl
  | begin self ss now seed =>
    have hheld : s.client.held = none := hmay
    obtain ⟨hheld', -, calls, hcalls, hbatch, -⟩ := s.step_begin self ss now seed
    rw [applied_begin, h.waiting_of_not_held hheld, waiting, hheld', hcalls, List.flatMap_append,
      flatMap_batch_of_returned (h.returned hheld), hbatch]
    rfl
  | goOn place m =>
    rw [applied_singleton]
    obtain ⟨hstep, hdeeds⟩ | ⟨stage, r, hstage, hstep, hgoes⟩ := s.step_goOn place m
    · rw [hstep, hdeeds]
      simp [Happening.event?]
    · obtain ⟨hwaiting, hwaiting'⟩ := h.waiting_set hstage hgoes.not_returned r
      rw [hstep, hwaiting', hwaiting, ← hgoes.waiting]
      simp [Happening.event?]

/-- As long as a server is asked, nothing is applied. -/
theorem applied_of_asking (h : s.InTurn) {a : Attempt} (hask : .asking a ∈ s.calls)
    (act : Happening) : s.applied [act] = [] := by
  cases act with
  | event e =>
    rw [applied_event, if_neg]
    intro hheld
    exact h.returned hheld _ hask
  | begin self ss now seed => exact applied_begin ..
  | goOn place m =>
    rw [applied_singleton]
    obtain ⟨-, hdeeds⟩ | ⟨stage, r, hstage, -, hgoes⟩ := s.step_goOn place m
    · rw [hdeeds]
      rfl
    · obtain ⟨i, hi⟩ := List.mem_iff_getElem?.mp hask
      obtain rfl : i = place :=
        h.eq_of_not_returned i place _ stage hi hstage not_false hgoes.not_returned
      obtain rfl := Option.some.inj (hi.symm.trans hstage)
      rw [deeds, hstage, Option.elim_some]
      unfold Registration.deeds
      split
      · exact Registration.filterMap_learn _
      · next heq => cases heq
      · rfl

end InTurn

theorem InTurn.run {s : Registrations} (h : s.InTurn) {hs : List Happening}
    (hone : s.OneAtATime hs) : (s.run hs).InTurn := by
  induction hs generalizing s with
  | nil => exact h
  | cons act hs ih => exact ih (h.step hone.1) hone.2

theorem InTurn.applied_run {s : Registrations} (h : s.InTurn) {hs : List Happening}
    (hone : s.OneAtATime hs) :
    s.applied hs ++ (s.run hs).waiting = s.waiting ++ Happening.events hs := by
  induction hs generalizing s with
  | nil => exact (List.append_nil s.waiting).symm
  | cons act hs ih =>
    rw [applied_cons, run_cons, Happening.events_cons, List.append_assoc,
      ih (h.step hone.1) hone.2, ← List.append_assoc, h.waiting_step hone.1, List.append_assoc]

/-- **What becomes of the events** that come in while a client registers, once or several times and
perhaps at the same time.

* The registry is what the deeds of the run make of it, and the events that are applied are among
  these.
* Each is applied once, is waiting still, or was held back when another call began; then it is lost.
* So none is lost exactly if no call begins while an event is held back.
* If no call begins as long as a registration is going on, the events are applied in the order in
  which they come, all of them once nothing is held back any more, and none as long as a server is
  asked. -/
theorem account_run (c : Client) (hheld : c.held = none) (hs : List Happening) :
    let s : Registrations := ⟨c, []⟩
    (s.run hs).client.registry = Deed.performAll c.registry (s.deedsOfRun hs) ∧
    (Happening.events hs).Perm (s.applied hs ++ s.lost hs ++ (s.run hs).waiting) ∧
    (s.lost hs = [] ↔
      ∀ before self ss now seed after, hs = before ++ .begin self ss now seed :: after →
        (s.run before).client.held.getD [] = []) ∧
    (s.OneAtATime hs →
      Happening.events hs = s.applied hs ++ (s.run hs).waiting ∧
      ((s.run hs).client.held = none → (s.run hs).waiting = []) ∧
      ∀ before act after a, hs = before ++ act :: after → .asking a ∈ (s.run before).calls →
        (s.run before).applied [act] = []) := by
  intro s
  have hwaiting : s.waiting = [] := by
    rw [waiting, hheld]
    rfl
  have hturn : s.InTurn := ⟨fun i j stage stage' hi ↦ by simp [s] at hi, fun _ stage hstage ↦ by
    cases hstage⟩
  refine ⟨s.registry_run hs, ?_, s.lost_eq_nil_iff hs, fun hone ↦ ⟨?_, (hturn.run hone).waiting_of_not_held, ?_⟩⟩
  · have hperm := s.perm_run hs
    rwa [hwaiting, List.nil_append] at hperm
  · have happlied := hturn.applied_run hone
    rw [hwaiting, List.nil_append] at happlied
    exact happlied.symm
  · rintro before act after a rfl hask
    exact (hturn.run hone.left).applied_of_asking hask act

/-! ## Two calls at a time -/

/-- The local peer registers. -/
def registersSelf : Happening := .begin ⟨⟨"Abc.Self.0"⟩, 0⟩ [] 0 0

/-- A server takes the registration of a call, and knows nobody. -/
def isTaken (place : Nat) : Happening := .goOn place (.answer (.replied 0 (some [])) 0)

/-- A peer starts. -/
def peerStarts : Event :=
  .started ⟨{ peer := .live ⟨"Abc.P.0"⟩ "tcp://Abc.P.0:1", subscriptions := [] }⟩

/-- A peer starts while the local peer registers.  Once that is over the local peer registers again,
and the peer falls silent meanwhile. -/
def registersAgain : List Happening :=
  [registersSelf, .event peerStarts, isTaken 0, .goOn 0 .take, .goOn 0 .apply, .goOn 0 .take,
    registersSelf, .event (.notResponding ⟨⟨"Abc.P.0"⟩⟩)]

/-- The one event is applied, and the other one is waiting. -/
theorem account_registersAgain :
    Happening.events registersAgain =
      (⟨Registration.oneServer, []⟩ : Registrations).applied registersAgain ++
        ((⟨Registration.oneServer, []⟩ : Registrations).run registersAgain).waiting ∧
    (⟨Registration.oneServer, []⟩ : Registrations).applied registersAgain = [peerStarts] := by
  obtain ⟨-, -, -, hone⟩ := account_run Registration.oneServer rfl registersAgain
  exact ⟨(hone ⟨rfl, trivial, trivial, trivial, trivial, trivial, rfl, trivial, trivial⟩).1, rfl⟩

/-- The local peer registers a second time before the first registration is over, and a peer starts
between. -/
def registersTwice : List Happening :=
  [registersSelf, .event peerStarts, registersSelf, isTaken 0, .goOn 0 .take, isTaken 1,
    .goOn 1 .take]

/-- The local peer registers a second time before the first registration is over, and a peer starts
once the second is. -/
def registersMeanwhile : List Happening :=
  [registersSelf, registersSelf, isTaken 1, .goOn 1 .take, .event peerStarts]

/-- **An event can be lost, or applied too early**, if registrations overlap.  In the one run both
calls return, and the peer that started during the first is not known; in the other run the event is
applied while the first call still asks a server. -/
theorem lost_registersTwice :
    (∃ a, .asking a ∈ ((⟨Registration.oneServer, []⟩ : Registrations).run
      (registersTwice.take 1)).calls) ∧
    registersTwice[1]? = some (.event peerStarts) ∧
    ((⟨Registration.oneServer, []⟩ : Registrations).run registersTwice).calls =
      [.returned (.ok ()), .returned (.ok ())] ∧
    (⟨Registration.oneServer, []⟩ : Registrations).lost registersTwice = [peerStarts] ∧
    (⟨Registration.oneServer, []⟩ : Registrations).applied registersTwice = [] ∧
    ((⟨Registration.oneServer, []⟩ : Registrations).run registersTwice).waiting = [] ∧
    (∃ a, ((⟨Registration.oneServer, []⟩ : Registrations).run registersMeanwhile).calls =
      [.asking a, .returned (.ok ())]) ∧
    (⟨Registration.oneServer, []⟩ : Registrations).applied registersMeanwhile = [peerStarts] :=
  ⟨⟨_, List.mem_singleton.mpr rfl⟩, rfl, rfl, rfl, rfl, rfl, ⟨_, rfl⟩, rfl⟩

end Registrations

end ServiceBus.Directory
