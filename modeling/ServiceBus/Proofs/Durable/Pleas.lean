import ServiceBus.Proofs.Durable.Session

/-!
# Calls that ask for the replay

A peer that is registered asks for the replay, and may ask again when nothing has come of it, or
twice at the same time.  A `Rejoining` is a session with the calls that ask: each takes the id of
the replay, asks the persistence service, and waits until the service has begun, and between any two
of these steps something else may happen.  An `Occasion` is what happens next.

`Call` says all that a call can do when it goes on (`call_of_step`); the rest of a run are moves of
the session (`step_move`).  A request that is made at one go, as a session knows it, is a call of
which nothing comes in between (`exists_run_of_request`).
-/

set_option autoImplicit false

namespace ServiceBus.Durable

open Directory (View)

namespace Transport

/-! ## To ask for a replay, in two steps -/

/-- Takes the id of the replay to ask for, if there can be one. -/
def openReplay? (t : Transport) (o : Outside) : Option (Uuid × Transport × Outside) :=
  (t.reception.open? o.fresh.1).map fun (replay, reception) ↦
    (replay, { t with reception }, o.fresh.2)

/-- Asks the persistence service for a replay. -/
def askReplay (t : Transport) (v : View) (replay : Uuid) (o : Outside) : Outside × Request :=
  let server? := v.persistenceServer?
  let o := o.note (.replayRequested replay (server?.map Peer.id))
  match server? with
  | none => (o, .pending)
  | some server =>
    let (id, o) := o.fresh
    match o.send (.encode id (⟨replay⟩ : StartReplay) t.origin) [server] with
    | (.ok _, o) => (o, .pending)
    | (.error failure, o) => (o, .failed failure)

/-- To request a replay is to take its id and to ask for it. -/
theorem requestReplay_eq (t : Transport) (v : View) (o : Outside) :
    t.requestReplay v o =
      match t.openReplay? o with
      | none => (t, o, .needless)
      | some (replay, t, o) =>
        let (o, request) := t.askReplay v replay o
        (t, o, request) := by
  rw [requestReplay, openReplay?]
  dsimp only
  cases t.reception.open? o.fresh.1 with
  | none => rfl
  | some opened =>
    dsimp only [Option.map_some, askReplay]
    cases v.persistenceServer? with
    | none => rfl
    | some server =>
      dsimp only
      generalize Outside.send _ _ _ = sent
      obtain ⟨result, o'⟩ := sent
      cases result <;> rfl

end Transport

/-! ## Calls that ask for the replay -/

/-- How far a call is that asks for the replay. -/
inductive Plea
  /-- It knows the id of the replay, and has yet to ask the persistence service. -/
  | opened (replay : Uuid)
  /-- It waits for the replay to begin. -/
  | waiting

/-- A session, and the calls that ask for the replay. -/
structure Rejoining where
  /-- The session. -/
  session : Session
  /-- The calls that have not returned. -/
  pleas : List Plea := []
  /-- What the others have returned. -/
  results : List (Except Failure Unit) := []

/-- What happens next. -/
inductive Occasion
  /-- One of the other parties moves. -/
  | move (move : Move)
  /-- A call begins. -/
  | plead
  /-- A call asks the persistence service, as the directory is seen then. -/
  | ask (place : Nat) (v : View)
  /-- A call sees that the replay has begun. -/
  | notice (place : Nat)
  /-- A call has waited for long enough. -/
  | expire (place : Nat)
  /-- A call is given up by whoever made it. -/
  | leave (place : Nat)

namespace Rejoining

/-- A transport that was just made and has a listener. -/
def start (settings : Settings) (origin : Origin) (outside : Outside) : Rejoining where
  session := .start settings origin outside

/-- The receiving side. -/
def reception (s : Rejoining) : Reception := s.session.transport.reception

/-- A call returns. -/
def finish (s : Rejoining) (place : Nat) (result : Except Failure Unit) : Rejoining :=
  { s with pleas := s.pleas.eraseIdx place, results := s.results ++ [result] }

/-- What comes after an occasion, if it can come about now.  Whoever requests the replay does so by
a call. -/
def step (s : Rejoining) : Occasion → Option Rejoining
  | .move (.request _) => none
  | .move move => (s.session.step move).map fun session ↦ { s with session }
  | .plead =>
    if s.session.waiting.isSome then none
    else
      match s.session.transport.openReplay? s.session.outside with
      | none => some { s with results := s.results ++ [.ok ()] }
      | some (replay, transport, outside) =>
        some { s with
          session := { s.session with transport, outside }
          pleas := s.pleas ++ [.opened replay] }
  | .ask place v =>
    match s.pleas[place]? with
    | some (.opened replay) =>
      match s.session.transport.askReplay v replay s.session.outside with
      | (outside, .failed failure) =>
        some (finish { s with session := { s.session with outside } } place (.error failure))
      | (outside, _) =>
        some { s with
          session := { s.session with outside }
          pleas := s.pleas.set place .waiting }
    | _ => none
  | .notice place =>
    match s.pleas[place]? with
    | some .waiting => if s.reception.replayBegun then some (s.finish place (.ok ())) else none
    | _ => none
  | .expire place =>
    match s.pleas[place]? with
    | some .waiting =>
      if s.reception.replayBegun then none
      else
        let timeoutMs := s.session.transport.startReplayTimeoutMs
        some (s.finish place (.error (.persistenceUnreachable timeoutMs)))
    | _ => none
  | .leave place =>
    if place < s.pleas.length then some { s with pleas := s.pleas.eraseIdx place } else none

/-- What comes after several occasions. -/
def run : Rejoining → List Occasion → Option Rejoining
  | s, [] => some s
  | s, occasion :: occasions => (s.step occasion).bind fun s ↦ s.run occasions

variable {s s' s₀ : Rejoining} {occasion : Occasion}

theorem step_move {move : Move} (h : s.step (.move move) = some s') :
    (∀ v, move ≠ .request v) ∧
      ∃ session, s.session.step move = some session ∧ s' = { s with session } := by
  cases move with
  | request v => cases h
  | _ =>
    simp only [step] at h
    obtain ⟨session, hsession, hs'⟩ := Option.map_eq_some_iff.mp h
    exact ⟨nofun, session, hsession, hs'.symm⟩

theorem run_append (s : Rejoining) (occasions occasions' : List Occasion) :
    s.run (occasions ++ occasions') = (s.run occasions).bind fun s ↦ s.run occasions' := by
  induction occasions generalizing s with
  | nil => rfl
  | cons occasion occasions ih =>
    rw [List.cons_append, run, run, Option.bind_assoc]
    exact Option.bind_congr fun s' _ ↦ ih s'

theorem run_concat {made : List Occasion} (hrun : s₀.run made = some s)
    (hstep : s.step occasion = some s') : s₀.run (made ++ [occasion]) = some s' := by
  rw [run_append, hrun, Option.bind_some, run, hstep]
  rfl

/-- Whoever requests the replay at one go does what a call does. -/
theorem exists_run_of_request {v : View} {session : Session}
    (h : s.session.step (.request v) = some session) :
    ∃ occasions s', s.run occasions = some s' ∧ s'.session = session := by
  rw [Session.step] at h
  split at h
  · cases h
  · next hwaiting =>
    rw [Transport.requestReplay_eq] at h
    cases hopen : s.session.transport.openReplay? s.session.outside with
    | none =>
      rw [hopen] at h
      obtain rfl := Option.some.inj h
      refine ⟨[.plead], { s with results := s.results ++ [.ok ()] }, ?_, rfl⟩
      simp [run, step, hwaiting, hopen]
    | some opened =>
      obtain ⟨replay, t, o⟩ := opened
      rw [hopen] at h
      cases hask : t.askReplay v replay o with
      | mk outside request =>
        simp only [hask] at h
        obtain rfl := Option.some.inj h
        cases request <;>
          exact ⟨[.plead, .ask s.pleas.length v], _,
            by simp [run, step, hwaiting, hopen, hask]; rfl, rfl⟩

/-- What one occasion after the other keeps, of the occasions so far and the state they led to, all
of them keep. -/
theorem run_keeps (P : List Occasion → Rejoining → Prop)
    (hkeeps : ∀ {made occasion s s'}, s₀.run made = some s → P made s →
      s.step occasion = some s' → P (made ++ [occasion]) s')
    (h : P [] s₀) {made : List Occasion} (hrun : s₀.run made = some s) : P made s := by
  suffices hall : ∀ (rest made : List Occasion) (s₁ : Rejoining), s₀.run made = some s₁ →
      P made s₁ → s₁.run rest = some s → P (made ++ rest) s from hall made [] s₀ rfl h hrun
  intro rest
  induction rest with
  | nil =>
    intro made s₁ _ hmade hend
    obtain rfl := Option.some.inj hend
    rwa [List.append_nil]
  | cons occasion rest ih =>
    intro made s₁ hs₁ hmade hend
    obtain ⟨s₂, hstep, hend⟩ := Option.bind_eq_some_iff.mp hend
    have hnext := ih (made ++ [occasion]) s₂ (run_concat hs₁ hstep) (hkeeps hs₁ hmade hstep) hend
    rwa [List.append_assoc, List.singleton_append] at hnext

/-! ## What a call does -/

/-- What a call does when it goes on.  Each of them leaves the session as it is but for what was
told outside, or takes the id of the replay. -/
inductive Call (s : Rejoining) : Occasion → Rejoining → Prop
  | needless (h : s.session.transport.openReplay? s.session.outside = none) :
      Call s .plead { s with results := s.results ++ [.ok ()] }
  | opened {replay : Uuid} {transport : Transport} {outside : Outside}
      (h : s.session.transport.openReplay? s.session.outside = some (replay, transport, outside)) :
      Call s .plead
        { s with
          session := { s.session with transport, outside }
          pleas := s.pleas ++ [.opened replay] }
  | asked {place : Nat} {v : View} {replay : Uuid} {outside : Outside} {pleas : List Plea}
      {results : List (Except Failure Unit)} (h : s.pleas[place]? = some (.opened replay))
      (hask : (s.session.transport.askReplay v replay s.session.outside).1 = outside)
      (hpleas : pleas = s.pleas.eraseIdx place ∨ pleas = s.pleas.set place .waiting)
      (hresults : .ok () ∈ results → .ok () ∈ s.results) :
      Call s (.ask place v) { session := { s.session with outside }, pleas, results }
  | returned {occasion : Occasion} {place : Nat} {result : Except Failure Unit}
      (h : result = .ok () → s.reception.replayBegun = true)
      (hoccasion : occasion = .notice place ∨ occasion = .expire place) :
      Call s occasion (s.finish place result)
  | left (place : Nat) : Call s (.leave place) { s with pleas := s.pleas.eraseIdx place }

theorem call_of_step (hmove : ∀ move, occasion ≠ .move move) (hstep : s.step occasion = some s') :
    s.Call occasion s' := by
  cases occasion with
  | move move => exact absurd rfl (hmove move)
  | plead =>
    simp only [step] at hstep
    split at hstep
    · cases hstep
    · split at hstep
      · next hnone =>
        obtain rfl := Option.some.inj hstep
        exact .needless hnone
      · next hsome =>
        obtain rfl := Option.some.inj hstep
        exact .opened hsome
  | ask place v =>
    simp only [step] at hstep
    split at hstep
    · next replay hplea =>
      split at hstep
      · next outside failure hask =>
        obtain rfl := Option.some.inj hstep
        exact .asked hplea (by rw [hask]) (Or.inl rfl) (by simp)
      · next outside request _ hask =>
        obtain rfl := Option.some.inj hstep
        exact .asked hplea (by rw [hask]) (Or.inr rfl) fun h ↦ h
    · cases hstep
  | notice place =>
    simp only [step] at hstep
    split at hstep
    · split at hstep
      · next hbegun =>
        obtain rfl := Option.some.inj hstep
        exact .returned (fun _ ↦ hbegun) (Or.inl rfl)
      · cases hstep
    · cases hstep
  | expire place =>
    simp only [step] at hstep
    split at hstep
    · split at hstep
      · cases hstep
      · obtain rfl := Option.some.inj hstep
        exact .returned (fun h ↦ by cases h) (Or.inr rfl)
    · cases hstep
  | leave place =>
    simp only [step] at hstep
    split at hstep
    · obtain rfl := Option.some.inj hstep
      exact .left place
    · cases hstep

end Rejoining

end ServiceBus.Durable
