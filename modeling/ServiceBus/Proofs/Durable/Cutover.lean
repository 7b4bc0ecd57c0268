import ServiceBus.Proofs.Durable.Session

/-!
# From the replay to live messages

A peer that is back is first given what it has missed, while live messages are held back; then both
are taken from one queue, and what was given already is passed over; then live messages are given at
once.  The listener should see nothing of this: it should get each message once.

`offers_of_run` says exactly what the listener is offered in a run that goes through all phases,
however the moves of the parties follow on each other.  The three stretches of such a run are the
three situations `Replaying`, `Draining` and `Settled`; each has one lemma for a move and one for
any number of moves, and the two ends of phases lead from one to the next.  The last step waits for
the worker, and `Draining.exists_settled` says that this wait can always come to its end.
-/

set_option autoImplicit false

namespace ServiceBus.Durable

/-! ## First copies -/

/-- The first copy of each message whose id was not seen before. -/
def firstCopies (seen : List Uuid) : List Envelope → List Envelope
  | [] => []
  | m :: ms =>
    if m.id ∈ seen then firstCopies seen ms else m :: firstCopies (m.id :: seen) ms

theorem firstCopies_concat (seen : List Uuid) (ms : List Envelope) (m : Envelope) :
    firstCopies seen (ms ++ [m]) =
      firstCopies seen ms ++ if m.id ∈ seen ∨ m.id ∈ ms.map Envelope.id then [] else [m] := by
  induction ms generalizing seen with
  | nil =>
    by_cases h : m.id ∈ seen <;> simp [firstCopies, h]
  | cons m' ms ih =>
    rw [List.cons_append, firstCopies, firstCopies]
    by_cases h : m'.id ∈ seen
    · have hseen : (m.id ∈ seen ∨ m.id ∈ ms.map Envelope.id) ↔
          (m.id ∈ seen ∨ m.id ∈ (m' :: ms).map Envelope.id) := by
        rw [List.map_cons, List.mem_cons]
        refine ⟨fun h' ↦ h'.imp_right Or.inr, ?_⟩
        rintro (h' | h' | h')
        · exact Or.inl h'
        · exact Or.inl (h' ▸ h)
        · exact Or.inr h'
      rw [if_pos h, if_pos h, ih]
      simp only [hseen]
    · have hseen : (m.id ∈ m'.id :: seen ∨ m.id ∈ ms.map Envelope.id) ↔
          (m.id ∈ seen ∨ m.id ∈ (m' :: ms).map Envelope.id) := by
        rw [List.map_cons, List.mem_cons, List.mem_cons, or_assoc, or_left_comm]
      rw [if_neg h, if_neg h, ih, List.cons_append]
      simp only [hseen]

theorem mem_ids_firstCopies {seen : List Uuid} {ms : List Envelope} {id : Uuid} :
    id ∈ (firstCopies seen ms).map Envelope.id ↔ id ∈ ms.map Envelope.id ∧ id ∉ seen := by
  induction ms generalizing seen with
  | nil => simp [firstCopies]
  | cons m ms ih =>
    rw [firstCopies]
    by_cases h : m.id ∈ seen
    · rw [if_pos h, ih, List.map_cons, List.mem_cons]
      refine ⟨fun h' ↦ ⟨Or.inr h'.1, h'.2⟩, ?_⟩
      rintro ⟨rfl | hid, hnot⟩
      · exact absurd h hnot
      · exact ⟨hid, hnot⟩
    · rw [if_neg h, List.map_cons, List.mem_cons, ih, List.map_cons, List.mem_cons, List.mem_cons]
      by_cases hid : id = m.id
      · subst hid
        simp [h]
      · simp [hid]

theorem nodup_ids_firstCopies (seen : List Uuid) (ms : List Envelope) :
    ((firstCopies seen ms).map Envelope.id).Nodup := by
  induction ms generalizing seen with
  | nil => simp [firstCopies]
  | cons m ms ih =>
    rw [firstCopies]
    split
    · exact ih seen
    · rw [List.map_cons, List.nodup_cons, mem_ids_firstCopies]
      exact ⟨fun h ↦ h.2 (by simp), ih _⟩

/-- What comes before and the first copies of what comes after are the first copies of all. -/
theorem nodup_ids_append_firstCopies {given : List Envelope}
    (h : (given.map Envelope.id).Nodup) (arrived : List Envelope) :
    ((given ++ firstCopies (given.map Envelope.id) arrived).map Envelope.id).Nodup := by
  rw [List.map_append, List.nodup_append]
  refine ⟨h, nodup_ids_firstCopies _ _, ?_⟩
  rintro id hgiven _ hfirst rfl
  exact (mem_ids_firstCopies.mp hfirst).2 hgiven

theorem mem_ids_append_firstCopies {given arrived : List Envelope} {id : Uuid} :
    id ∈ (given ++ firstCopies (given.map Envelope.id) arrived).map Envelope.id ↔
      id ∈ (given ++ arrived).map Envelope.id := by
  rw [List.map_append, List.mem_append, mem_ids_firstCopies, List.map_append, List.mem_append]
  by_cases h : id ∈ given.map Envelope.id
  · exact iff_of_true (Or.inl h) (Or.inl h)
  · exact or_congr_right (and_iff_left h)

/-! ## What moves bring in -/

theorem filterMap_concat_toList {α β : Type} (f : α → Option β) (as : List α) (a : α) :
    (as ++ [a]).filterMap f = as.filterMap f ++ (f a).toList := by
  cases h : f a <;> simp [h]

namespace Move

/-- The live message that a move brings in. -/
def live? : Move → Option Envelope
  | .receive m => if isLive m then some m else none
  | _ => none

/-- The replayed message that a move brings in, as the listener gets to see it. -/
def replayed? : Move → Option Envelope
  | .receive m =>
    match m.decode Replayed with
    | .ok body => some { body.message with replayed := true }
    | .error _ => none
  | _ => none

/-- The message that a move brings in, live or replayed. -/
def arrival? (move : Move) : Option Envelope := move.live?.or move.replayed?

/-- The moves of a run between the ends of phases: live messages and replayed ones of the replay
that was asked for come in, the replay is asked for again, the listener accepts what it is offered,
and the worker ends before it has been waited for long enough. -/
inductive Ordinary (session : Option Uuid) : Move → Prop
  | request (h : session.isSome) (v : Directory.View) : Ordinary session (.request v)
  | live {m : Envelope} (h : isLive m) : Ordinary session (.receive m)
  | replayed {m : Envelope} {body : Replayed} (h : m.decode Replayed = .ok body)
      (hsession : session = some body.replay) : Ordinary session (.receive m)
  | turn : Ordinary session .turn
  | accept : Ordinary session (.judge .accepted)
  | joined : Ordinary session .joined

theorem live?_of_isLive {m : Envelope} (h : isLive m) : (receive m).live? = some m := by
  simp [live?, h]

theorem live?_of_decode {m : Envelope} {body : Replayed} (h : m.decode Replayed = .ok body) :
    (receive m).live? = none := by
  simp [live?, isLive_eq_false_of_decode_replayed h]

theorem replayed?_of_isLive {m : Envelope} (h : isLive m) : (receive m).replayed? = none := by
  cases hdecode : m.decode Replayed with
  | error failure => simp [replayed?, hdecode]
  | ok body => simp [isLive_eq_false_of_decode_replayed hdecode] at h

theorem replayed?_of_decode {m : Envelope} {body : Replayed} (h : m.decode Replayed = .ok body) :
    (receive m).replayed? = some { body.message with replayed := true } := by
  simp [replayed?, h]

theorem arrival?_of_isLive {m : Envelope} (h : isLive m) : (receive m).arrival? = some m := by
  rw [arrival?, live?_of_isLive h, Option.some_or]

theorem arrival?_of_decode {m : Envelope} {body : Replayed} (h : m.decode Replayed = .ok body) :
    (receive m).arrival? = some { body.message with replayed := true } := by
  rw [arrival?, live?_of_decode h, Option.none_or, replayed?_of_decode h]

/-- Before a replay was asked for, nothing is replayed. -/
theorem replayed?_of_ordinary_none {move : Move} (h : Ordinary none move) :
    move.replayed? = none := by
  cases h with
  | live hm => exact replayed?_of_isLive hm
  | request hsession v => cases hsession
  | replayed hm hsession => cases hsession
  | turn => rfl
  | accept => rfl
  | joined => rfl

end Move

/-! ## How the receiving side responds -/

namespace Reception

variable {r : Reception}

/-- While a replay is going on, live messages are held back. -/
theorem receiveLive_of_session (h : (∃ session, r.phase = .replay session) ∨
    ∃ session, r.phase = .safety session) (hworker : r.worker ≠ .broken) (m : Envelope) :
    r.receiveLive m = ({ r with queue := r.queue ++ [m] }, [], .nothing) := by
  rw [receiveLive]
  rcases h with ⟨session, h⟩ | ⟨session, h⟩
  · simp [h, hold, hworker]
  · simp [h, hold, hworker]

/-- In the replay phase a replayed message is given to the listener at once. -/
theorem receiveReplayed_of_replay {body : Replayed} (h : r.phase = .replay (some body.replay)) :
    r.receiveReplayed body =
      ({ r with
          replayBegun := true
          offered := if body.message.id ∈ r.offered then r.offered
            else body.message.id :: r.offered },
        [], .offer { body.message with replayed := true }) := by
  simp [receiveReplayed, h, Phase.session]

/-- In the safety phase a replayed message goes into the queue. -/
theorem receiveReplayed_of_safety {body : Replayed} (h : r.phase = .safety body.replay)
    (hworker : r.worker ≠ .broken) :
    r.receiveReplayed body =
      ({ r with
          replayBegun := true
          queue := r.queue ++ [{ body.message with replayed := true }] }, [], .nothing) := by
  simp [receiveReplayed, h, Phase.session, hold, hworker]

theorem receiveReplayed_of_normal (h : r.phase = .normal) (body : Replayed) :
    r.receiveReplayed body =
      (r, [.replayIgnored (Message.type Replayed) body.replay .normal], .nothing) := by
  simp [receiveReplayed, h, Phase.session]

theorem receiveLive_of_normal (h : r.phase = .normal) (m : Envelope) :
    r.receiveLive m = (r, [], .offer m) := by
  rw [receiveLive, h]

theorem turn_of_not_idle (h : r.worker ≠ .idle) : r.turn = (r, .rest) := by
  rw [turn]
  split
  · next hidle _ => exact absurd hidle h
  · next hidle _ => exact absurd hidle h
  · rfl

/-- The worker that finds nothing in the queue ends if nothing will come into it any more. -/
theorem turn_of_nil (hidle : r.worker = .idle) (hqueue : r.queue = []) :
    r.turn = (if r.phase = .normal then { r with worker := .ended } else r, .rest) := by
  simp [turn, hidle, hqueue]

theorem turn_of_mem {m : Envelope} {rest : List Envelope} (hidle : r.worker = .idle)
    (hqueue : r.queue = m :: rest) (hseen : m.id ∈ r.offered) :
    r.turn = ({ r with queue := rest }, .skip m.id) := by
  simp [turn, hidle, hqueue, hseen]

theorem turn_of_not_mem {m : Envelope} {rest : List Envelope} (hidle : r.worker = .idle)
    (hqueue : r.queue = m :: rest) (hseen : m.id ∉ r.offered) :
    r.turn =
      ({ r with queue := rest, offered := m.id :: r.offered, worker := .offering m },
        .offer m) := by
  simp [turn, hidle, hqueue, hseen]

end Reception

namespace Session

open Move (Ordinary)

/-- To ask for a replay changes nothing but the receiving side and what was told outside. -/
theorem step_request {s s' : Session} {v : Directory.View} (h : s.step (.request v) = some s') :
    s'.transport = (s.transport.requestReplay v s.outside).1 ∧ s'.waiting = none ∧
      s.waiting = none ∧ s'.offers = s.offers := by
  rw [step] at h
  split at h
  · cases h
  · next hwaiting =>
    obtain rfl := Option.some.inj h
    have hnone : s.waiting = none := by simpa using hwaiting
    exact ⟨rfl, hnone, hnone, rfl⟩

/-! ## The replay phase -/

/-- A replay is going on: what was replayed is given, and what comes in live is held back. -/
structure Replaying (session : Option Uuid) (given held : List Envelope) (s : Session) : Prop where
  /-- The phase. -/
  phase : s.transport.reception.phase = .replay session
  /-- Live messages are held back. -/
  queue : s.transport.reception.queue = held
  /-- What was replayed is remembered. -/
  mem_offered : ∀ id, id ∈ s.transport.reception.offered ↔ id ∈ given.map Envelope.id
  /-- There is no worker yet. -/
  worker : s.transport.reception.worker = .absent
  /-- There is a listener. -/
  listener : s.transport.hasListener = true
  /-- Nobody waits. -/
  waiting : s.waiting = none
  /-- The listener was given what was replayed. -/
  offers : s.offers = given

theorem replaying_start {settings : Settings} (h : settings.persistent = true) (origin : Origin)
    (outside : Outside) : Replaying none [] [] (start settings origin outside) where
  phase := by simp [start, Transport.ofSettings, Reception.start, h]
  queue := rfl
  mem_offered _ := Iff.rfl
  worker := rfl
  listener := rfl
  waiting := rfl
  offers := rfl

namespace Replaying

variable {session : Option Uuid} {given held : List Envelope} {s s' : Session}

theorem live (h : Replaying session given held s) {m : Envelope} (hm : isLive m)
    (hstep : s.step (.receive m) = some s') : Replaying session given (held ++ [m]) s' := by
  rw [step_receive h.waiting, Transport.receive_live hm,
    Reception.receiveLive_of_session (Or.inl ⟨session, h.phase⟩) (by simp [h.worker]),
    follow_nothing] at hstep
  obtain rfl := Option.some.inj hstep
  exact ⟨h.phase, by simp [update, h.queue], h.mem_offered, h.worker, h.listener, h.waiting,
    h.offers⟩

theorem replayed (h : Replaying session given held s) {m : Envelope} {body : Replayed}
    (hm : m.decode Replayed = .ok body) (hsession : session = some body.replay)
    (hstep : s.step (.receive m) = some s') :
    Replaying session (given ++ [{ body.message with replayed := true }]) held s' := by
  rw [step_receive h.waiting, Transport.receive_replayed hm,
    Reception.receiveReplayed_of_replay (hsession ▸ h.phase), follow_offer h.listener] at hstep
  obtain rfl := Option.some.inj hstep
  refine ⟨h.phase, h.queue, fun id ↦ ?_, h.worker, h.listener, h.waiting, ?_⟩
  · simp only [update, List.map_append, List.mem_append, List.map_singleton, List.mem_singleton,
      ← h.mem_offered]
    split
    · next hthere => exact ⟨Or.inl, fun hid ↦ hid.elim (fun hid ↦ hid) fun hid ↦ hid ▸ hthere⟩
    · rw [List.mem_cons, or_comm]
  · simp [h.offers]

/-- What asking for the replay does to the receiving side. -/
theorem request (h : Replaying session given held s) {v : Directory.View}
    (hstep : s.step (.request v) = some s') :
    Replaying (some (session.getD s.outside.fresh.1)) given held s' := by
  obtain ⟨htransport, hwaiting, -, hoffers⟩ := step_request hstep
  have hopen : s.transport.reception.open? s.outside.fresh.1 =
      some (session.getD s.outside.fresh.1,
        { s.transport.reception with
          phase := .replay (some (session.getD s.outside.fresh.1)) }) := by
    rw [Reception.open?, h.phase]
    cases session with
    | none => rfl
    | some session => simp [← h.phase]
  rw [Transport.requestReplay_fst, hopen] at htransport
  refine ⟨?_, ?_, ?_, ?_, ?_, hwaiting, hoffers.trans h.offers⟩
  · rw [htransport]
  · rw [htransport]
    exact h.queue
  · rw [htransport]
    exact h.mem_offered
  · rw [htransport]
    exact h.worker
  · rw [htransport]
    exact h.listener

/-- An ordinary move adds what it brings in. -/
theorem step (h : Replaying session given held s) {move : Move} (hmove : Ordinary session move)
    (hstep : s.step move = some s') :
    Replaying session (given ++ move.replayed?.toList) (held ++ move.live?.toList) s' := by
  cases hmove with
  | request hsession v =>
    have hsame : some (session.getD s.outside.fresh.1) = session := by
      obtain ⟨id, rfl⟩ := Option.isSome_iff_exists.mp hsession
      rfl
    simpa [Move.replayed?, Move.live?, hsame] using h.request hstep
  | live hm => simpa [Move.replayed?_of_isLive hm, Move.live?_of_isLive hm] using h.live hm hstep
  | replayed hm hsession =>
    simpa [Move.replayed?_of_decode hm, Move.live?_of_decode hm] using h.replayed hm hsession hstep
  | turn =>
    rw [Session.step, work_of_rest (Reception.turn_of_not_idle (by simp [h.worker])),
      update_self] at hstep
    obtain rfl := Option.some.inj hstep
    simpa [Move.replayed?, Move.live?] using h
  | accept => simp [Session.step, h.worker] at hstep
  | joined => simp [Session.step, wake, h.waiting] at hstep

theorem run (h : Replaying session given held s) {moves : List Move}
    (hmoves : ∀ move ∈ moves, Ordinary session move) (hrun : s.run moves = some s') :
    Replaying session (given ++ moves.filterMap Move.replayed?)
      (held ++ moves.filterMap Move.live?) s' := by
  refine run_keeps (fun made s ↦ Replaying session (given ++ made.filterMap Move.replayed?)
    (held ++ made.filterMap Move.live?) s) ?_ (by simpa using h) hmoves hrun
  intro made move s s' h hmove hstep
  rw [filterMap_concat_toList, filterMap_concat_toList, ← List.append_assoc, ← List.append_assoc]
  exact h.step hmove hstep

end Replaying

/-! ## The safety phase -/

/-- The queue is emptied: of what has come in since the worker started, the listener was given the
first copies, as far as the worker has come. -/
structure Draining (p : Phase) (w : Option Waiting) (given arrived : List Envelope)
    (s : Session) : Prop where
  /-- The phase. -/
  phase : s.transport.reception.phase = p
  /-- Who waits. -/
  waiting : s.waiting = w
  /-- There is a listener. -/
  listener : s.transport.hasListener = true
  /-- The worker goes on until nothing will come into the queue any more. -/
  worker : s.transport.reception.worker = .idle ∨
    (∃ m, s.transport.reception.worker = .offering m) ∨
    (s.transport.reception.worker = .ended ∧ s.transport.reception.queue = [] ∧ p = .normal)
  /-- What the worker took out of the queue, the listener was given once. -/
  taken : ∃ done, arrived = done ++ s.transport.reception.queue ∧
    s.offers = given ++ firstCopies (given.map Envelope.id) done ∧
    ∀ id, id ∈ s.transport.reception.offered ↔
      id ∈ given.map Envelope.id ∨ id ∈ done.map Envelope.id

/-- When the replay phase ends, the worker starts with what was held back. -/
theorem Replaying.endReplayPhase {session : Uuid} {given held : List Envelope} {s s' : Session}
    (h : Replaying (some session) given held s) {m : Envelope}
    (hm : m.decode ReplayPhaseEnded = .ok ⟨session⟩) (hstep : s.step (.receive m) = some s') :
    Draining (.safety session) none given held s' := by
  have hend : s.transport.reception.endReplayPhase session =
      ({ s.transport.reception with
          phase := .safety session, worker := .idle, replayBegun := true },
        [.replayPhaseEnded session]) := by
    simp [Reception.endReplayPhase, h.phase]
  rw [step_receive h.waiting, Transport.receive_replayPhaseEnded hm, hend, follow_nothing] at hstep
  obtain rfl := Option.some.inj hstep
  refine ⟨rfl, h.waiting, h.listener, Or.inl rfl, [], ?_, ?_, fun id ↦ ?_⟩
  · simp [update, h.queue]
  · simp [update, h.offers, firstCopies]
  · simp [update, h.mem_offered]

namespace Draining

variable {p : Phase} {w : Option Waiting} {given arrived : List Envelope} {s s' : Session}

theorem not_broken (h : Draining p w given arrived s) :
    s.transport.reception.worker ≠ .broken := by
  rcases h.worker with hidle | ⟨m, hoffering⟩ | ⟨hended, -⟩
  · simp [hidle]
  · simp [hoffering]
  · simp [hended]

/-- While the phase lasts the worker has not ended. -/
theorem worker_of_ne_normal (h : Draining p w given arrived s) (hphase : p ≠ .normal) :
    s.transport.reception.worker = .idle ∨ ∃ m, s.transport.reception.worker = .offering m := by
  rcases h.worker with hidle | hoffering | ⟨-, -, hnormal⟩
  · exact Or.inl hidle
  · exact Or.inr hoffering
  · exact absurd hnormal hphase

/-- What comes into the queue has arrived. -/
theorem enqueue (h : Draining p w given arrived s) (hphase : p ≠ .normal)
    (m : Envelope) (begun : Bool) :
    Draining p w given (arrived ++ [m])
      (s.update { s.transport.reception with
        replayBegun := begun, queue := s.transport.reception.queue ++ [m] } []) := by
  obtain ⟨done, harrived, hoffers, hoffered⟩ := h.taken
  refine ⟨h.phase, h.waiting, h.listener, ?_, done, ?_, hoffers, hoffered⟩
  · rcases h.worker_of_ne_normal hphase with hidle | hoffering
    · exact Or.inl hidle
    · exact Or.inr (Or.inl hoffering)
  · simp [update, harrived]

/-- The worker finds nothing in the queue. -/
theorem workEmpty (h : Draining p w given arrived s)
    (hidle : s.transport.reception.worker = .idle) (hqueue : s.transport.reception.queue = []) :
    Draining p w given arrived s.work := by
  rw [work_of_rest (Reception.turn_of_nil hidle hqueue)]
  by_cases hnormal : s.transport.reception.phase = .normal
  · rw [if_pos hnormal]
    exact ⟨h.phase, h.waiting, h.listener, Or.inr (Or.inr ⟨rfl, hqueue, h.phase ▸ hnormal⟩),
      h.taken⟩
  · rw [if_neg hnormal, update_self]
    exact h

/-- The worker that finds a message gives it to the listener, unless its id was given before. -/
theorem workNext (h : Draining p w given arrived s) {m : Envelope} {rest : List Envelope}
    (hidle : s.transport.reception.worker = .idle)
    (hqueue : s.transport.reception.queue = m :: rest) :
    Draining p w given arrived s.work := by
  obtain ⟨done, harrived, hoffers, hoffered⟩ := h.taken
  have harrived' : arrived = (done ++ [m]) ++ rest := by simp [harrived, hqueue]
  by_cases hseen : m.id ∈ s.transport.reception.offered
  · rw [work_of_skip (Reception.turn_of_mem hidle hqueue hseen)]
    refine ⟨h.phase, h.waiting, h.listener, Or.inl hidle, done ++ [m], harrived', ?_, fun id ↦ ?_⟩
    · rw [firstCopies_concat, if_pos ((hoffered m.id).mp hseen), List.append_nil]
      exact hoffers
    · -- the message that is passed over adds no id
      have hm := (hoffered m.id).mp hseen
      show id ∈ s.transport.reception.offered ↔ _
      rw [hoffered, List.map_append, List.mem_append, ← or_assoc]
      refine ⟨Or.inl, fun hid ↦ hid.elim (fun hid ↦ hid) fun hid ↦ ?_⟩
      obtain rfl : id = m.id := by simpa using hid
      exact hm
  · rw [work_of_offer h.listener (Reception.turn_of_not_mem hidle hqueue hseen)]
    refine ⟨h.phase, h.waiting, h.listener, Or.inr (Or.inl ⟨m, rfl⟩), done ++ [m], harrived', ?_,
      fun id ↦ ?_⟩
    · rw [firstCopies_concat, if_neg fun hm ↦ hseen ((hoffered m.id).mpr hm), ← List.append_assoc,
        ← hoffers]
    · show id ∈ m.id :: s.transport.reception.offered ↔ _
      rw [List.mem_cons, hoffered, List.map_append, List.mem_append, List.map_singleton,
        List.mem_singleton, or_comm, or_assoc]

/-- The worker gives the listener the next message, unless it was given before. -/
theorem work (h : Draining p w given arrived s) : Draining p w given arrived s.work := by
  rcases h.worker with hidle | ⟨m, hoffering⟩ | ⟨hended, hqueue, hnormal⟩
  · cases hqueue : s.transport.reception.queue with
    | nil => exact h.workEmpty hidle hqueue
    | cons m rest => exact h.workNext hidle hqueue
  · rw [work_of_rest (Reception.turn_of_not_idle (by simp [hoffering])), update_self]
    exact h
  · rw [work_of_rest (Reception.turn_of_not_idle (by simp [hended])), update_self]
    exact h

/-- The listener accepts what it is offered, and the worker goes on. -/
theorem accept (h : Draining p w given arrived s)
    (hstep : s.step (.judge .accepted) = some s') : Draining p w given arrived s' := by
  cases hworker : s.transport.reception.worker with
  | offering m =>
    rw [step_accept hworker] at hstep
    obtain rfl := Option.some.inj hstep
    exact ⟨h.phase, h.waiting, h.listener, Or.inl rfl, h.taken⟩
  | _ => simp [Session.step, hworker] at hstep

/-- A move of the safety phase adds what it brings in. -/
theorem step {session : Uuid} (h : Draining (.safety session) none given arrived s) {move : Move}
    (hmove : Ordinary (some session) move) (hstep : s.step move = some s') :
    Draining (.safety session) none given (arrived ++ move.arrival?.toList) s' := by
  have hbroken : s.transport.reception.worker ≠ .broken := h.not_broken
  cases hmove with
  | request hsession v =>
    obtain rfl := step_request_of_needless (by rw [Reception.open?, h.phase]) hstep
    simpa [Move.arrival?, Move.live?, Move.replayed?] using h
  | live hm =>
    rw [step_receive h.waiting, Transport.receive_live hm,
      Reception.receiveLive_of_session (Or.inr ⟨session, h.phase⟩) hbroken, follow_nothing] at hstep
    obtain rfl := Option.some.inj hstep
    simpa [Move.arrival?_of_isLive hm] using
      h.enqueue (by simp) _ s.transport.reception.replayBegun
  | replayed hm hsession =>
    rw [step_receive h.waiting, Transport.receive_replayed hm,
      Reception.receiveReplayed_of_safety (Option.some.inj hsession ▸ h.phase) hbroken,
      follow_nothing] at hstep
    obtain rfl := Option.some.inj hstep
    simpa [Move.arrival?_of_decode hm] using
      h.enqueue (by simp) _ true
  | turn =>
    obtain rfl := Option.some.inj hstep
    simpa [Move.arrival?, Move.live?, Move.replayed?] using h.work
  | accept => simpa [Move.arrival?, Move.live?, Move.replayed?] using h.accept hstep
  | joined => simp [Session.step, wake, h.waiting] at hstep

theorem run {session : Uuid} (h : Draining (.safety session) none given arrived s)
    {moves : List Move} (hmoves : ∀ move ∈ moves, Ordinary (some session) move)
    (hrun : s.run moves = some s') :
    Draining (.safety session) none given (arrived ++ moves.filterMap Move.arrival?) s' := by
  refine run_keeps (fun made s ↦ Draining (.safety session) none given
    (arrived ++ made.filterMap Move.arrival?) s) ?_ (by simpa using h) hmoves hrun
  intro made move s s' h hmove hstep
  rw [filterMap_concat_toList, ← List.append_assoc]
  exact h.step hmove hstep

/-- When the safety phase ends, the worker is waited for. -/
theorem endSafetyPhase {session : Uuid} (h : Draining (.safety session) none given arrived s)
    {m : Envelope} (hm : m.decode SafetyPhaseEnded = .ok ⟨session⟩)
    (hstep : s.step (.receive m) = some s') :
    Draining .normal (some (.phaseEnd session)) given arrived s' := by
  have hend : s.transport.reception.endSafetyPhase session =
      ({ s.transport.reception with phase := .normal }, [], .await session) := by
    simp [Reception.endSafetyPhase, h.phase]
  rw [step_receive h.waiting, Transport.receive_safetyPhaseEnded hm, hend, follow_await] at hstep
  obtain rfl := Option.some.inj hstep
  refine ⟨rfl, rfl, h.listener, ?_, h.taken⟩
  rcases h.worker_of_ne_normal (by simp) with hidle | hoffering
  · exact Or.inl hidle
  · exact Or.inr (Or.inl hoffering)

end Draining

/-! ## Normal operation -/

/-- The replay is over: each live message is given to the listener at once. -/
structure Settled (given : List Envelope) (s : Session) : Prop where
  /-- The phase. -/
  phase : s.transport.reception.phase = .normal
  /-- Nobody waits. -/
  waiting : s.waiting = none
  /-- There is a listener. -/
  listener : s.transport.hasListener = true
  /-- The worker has ended. -/
  worker : s.transport.reception.worker = .ended
  /-- What the listener was given. -/
  offers : s.offers = given

namespace Settled

variable {given : List Envelope} {s s' : Session} {session : Option Uuid}

/-- A move adds the live message that it brings in. -/
theorem step (h : Settled given s) {move : Move} (hmove : Ordinary session move)
    (hstep : s.step move = some s') : Settled (given ++ move.live?.toList) s' := by
  cases hmove with
  | request hsession v =>
    obtain rfl := step_request_of_needless (by rw [Reception.open?, h.phase]) hstep
    simpa [Move.live?] using h
  | live hm =>
    rw [step_receive h.waiting, Transport.receive_live hm, Reception.receiveLive_of_normal h.phase,
      follow_offer h.listener] at hstep
    obtain rfl := Option.some.inj hstep
    simp only [Move.live?_of_isLive hm, Option.toList_some]
    exact ⟨h.phase, h.waiting, h.listener, h.worker, congrArg (· ++ _) h.offers⟩
  | replayed hm hsession =>
    rw [step_receive h.waiting, Transport.receive_replayed hm,
      Reception.receiveReplayed_of_normal h.phase, follow_nothing] at hstep
    obtain rfl := Option.some.inj hstep
    simp only [Move.live?_of_decode hm, Option.toList_none, List.append_nil]
    exact ⟨h.phase, h.waiting, h.listener, h.worker, h.offers⟩
  | turn =>
    rw [Session.step, work_of_rest (Reception.turn_of_not_idle (by simp [h.worker])),
      update_self] at hstep
    obtain rfl := Option.some.inj hstep
    simpa [Move.live?] using h
  | accept => simp [Session.step, h.worker] at hstep
  | joined => simp [Session.step, wake, h.waiting] at hstep

theorem run (h : Settled given s) {moves : List Move}
    (hmoves : ∀ move ∈ moves, Ordinary session move) (hrun : s.run moves = some s') :
    Settled (given ++ moves.filterMap Move.live?) s' := by
  refine run_keeps (fun made s ↦ Settled (given ++ made.filterMap Move.live?) s) ?_
    (by simpa using h) hmoves hrun
  intro made move s s' h hmove hstep
  rw [filterMap_concat_toList, ← List.append_assoc]
  exact h.step hmove hstep

end Settled

namespace Draining

variable {session : Uuid} {given arrived : List Envelope} {s s' : Session}

/-- When the worker has ended, the listener was given all that had come in. -/
theorem joined (h : Draining .normal (some (.phaseEnd session)) given arrived s)
    (hstep : s.step .joined = some s') :
    Settled (given ++ firstCopies (given.map Envelope.id) arrived) s' := by
  rw [Session.step] at hstep
  split at hstep
  · next hworker =>
    have hended : s.transport.reception.worker = .ended ∧ s.transport.reception.queue = [] := by
      rcases h.worker with hidle | ⟨m, hoffering⟩ | ⟨hended, hqueue, -⟩
      · simp [Reception.workerEnded, hidle] at hworker
      · simp [Reception.workerEnded, hoffering] at hworker
      · exact ⟨hended, hqueue⟩
    obtain ⟨done, harrived, hoffers, -⟩ := h.taken
    rw [hended.2, List.append_nil] at harrived
    rw [wake, h.waiting] at hstep
    obtain rfl := Option.some.inj hstep
    exact ⟨h.phase, rfl, h.listener, hended.1, harrived ▸ hoffers⟩
  · cases hstep

/-- Whoever ends the safety phase holds on to it until the worker has ended, so that no message
comes in before. -/
theorem close (h : Draining .normal (some (.phaseEnd session)) given arrived s) {move : Move}
    (hmove : Ordinary (some session) move) (hstep : s.step move = some s') :
    move.live? = none ∧
      (Draining .normal (some (.phaseEnd session)) given arrived s' ∨
        Settled (given ++ firstCopies (given.map Envelope.id) arrived) s') := by
  cases hmove with
  | request hsession v => simp [Session.step, h.waiting] at hstep
  | live hm =>
    rw [step_receive_of_waiting h.waiting (is_stopping_of_isLive hm)] at hstep
    cases hstep
  | replayed hm hsession =>
    rw [step_receive_of_waiting h.waiting (is_stopping_of_decode_replayed hm)] at hstep
    cases hstep
  | turn =>
    obtain rfl := Option.some.inj hstep
    exact ⟨rfl, Or.inl h.work⟩
  | accept => exact ⟨rfl, Or.inl (h.accept hstep)⟩
  | joined => exact ⟨rfl, Or.inr (h.joined hstep)⟩

/-- Once nobody waits any longer, the replay is over. -/
theorem settle (h : Draining .normal (some (.phaseEnd session)) given arrived s)
    {moves : List Move} (hmoves : ∀ move ∈ moves, Ordinary (some session) move)
    (hrun : s.run moves = some s') (hwaiting : s'.waiting = none) :
    Settled (given ++ firstCopies (given.map Envelope.id) arrived ++ moves.filterMap Move.live?)
      s' := by
  induction moves generalizing s with
  | nil =>
    obtain rfl := Option.some.inj hrun
    simp [h.waiting] at hwaiting
  | cons move moves ih =>
    obtain ⟨s₁, hstep, hrest⟩ := run_cons_eq_some hrun
    have hrestOrdinary : ∀ move' ∈ moves, Ordinary (some session) move' :=
      fun move' hmove' ↦ hmoves move' (by simp [hmove'])
    obtain ⟨hlive, hdraining | hsettled⟩ := h.close (hmoves move (by simp)) hstep
    · rw [List.filterMap_cons_none hlive]
      exact ih hdraining hrestOrdinary hrest
    · rw [List.filterMap_cons_none hlive]
      exact hsettled.run hrestOrdinary hrest

/-- The worker that waits for a message comes to its end with the last one in the queue. -/
theorem exists_ended_of_idle {w : Option Waiting} (h : Draining .normal w given arrived s)
    (hidle : s.transport.reception.worker = .idle) :
    ∃ moves s', (∀ move ∈ moves, Ordinary (some session) move) ∧ s.run moves = some s' ∧
      Draining .normal w given arrived s' ∧ s'.transport.reception.worker = .ended := by
  induction hqueue : s.transport.reception.queue generalizing s with
  | nil =>
    refine ⟨[.turn], s.work, by simpa using .turn, rfl, h.workEmpty hidle hqueue, ?_⟩
    rw [work_of_rest (Reception.turn_of_nil hidle hqueue), if_pos h.phase]
    rfl
  | cons m rest ih =>
    have hwork := h.workNext hidle hqueue
    by_cases hseen : m.id ∈ s.transport.reception.offered
    · have heq := work_of_skip (Reception.turn_of_mem hidle hqueue hseen)
      obtain ⟨moves, s', hmoves, hrun, hend⟩ :=
        ih hwork (by simpa [heq, update]) (by simp [heq, update])
      exact ⟨.turn :: moves, s', List.forall_mem_cons.mpr ⟨.turn, hmoves⟩, hrun, hend⟩
    · -- the listener has to accept the message before the worker goes on
      have heq := work_of_offer h.listener (Reception.turn_of_not_mem hidle hqueue hseen)
      have haccept := step_accept (s := s.work) (m := m) (by simp [heq, update])
      obtain ⟨moves, s', hmoves, hrun, hend⟩ :=
        ih (hwork.accept haccept) rfl (by simp [heq, update])
      refine ⟨.turn :: .judge .accepted :: moves, s',
        List.forall_mem_cons.mpr ⟨.turn, List.forall_mem_cons.mpr ⟨.accept, hmoves⟩⟩, ?_, hend⟩
      rw [Session.run, Session.step, Option.bind_some, Session.run, haccept, Option.bind_some, hrun]

/-- The wait for the worker can always come to its end: no more is needed than that the worker goes
on and the listener accepts what it is offered. -/
theorem exists_settled (h : Draining .normal (some (.phaseEnd session)) given arrived s) :
    ∃ moves s', (∀ move ∈ moves, Ordinary (some session) move) ∧ s.run moves = some s' ∧
      Settled (given ++ firstCopies (given.map Envelope.id) arrived) s' := by
  have hended : ∃ moves s', (∀ move ∈ moves, Ordinary (some session) move) ∧
      s.run moves = some s' ∧ Draining .normal (some (.phaseEnd session)) given arrived s' ∧
        s'.transport.reception.worker = .ended := by
    rcases h.worker with hidle | ⟨m, hoffering⟩ | ⟨hended, -⟩
    · exact h.exists_ended_of_idle hidle
    · have haccept := step_accept hoffering
      obtain ⟨moves, s', hmoves, hrun, hend⟩ := (h.accept haccept).exists_ended_of_idle rfl
      refine ⟨.judge .accepted :: moves, s', List.forall_mem_cons.mpr ⟨.accept, hmoves⟩, ?_, hend⟩
      rw [Session.run, haccept, Option.bind_some, hrun]
    · exact ⟨[], s, by simp, rfl, h, hended⟩
  obtain ⟨moves, s', hmoves, hrun, hdraining, hworker⟩ := hended
  have hjoin : ∃ s'', s'.step .joined = some s'' := by
    simp [Session.step, Reception.workerEnded, hworker, wake, hdraining.waiting]
  obtain ⟨s'', hstep⟩ := hjoin
  refine ⟨moves ++ [.joined], s'', ?_, ?_, hdraining.joined hstep⟩
  · intro move hmove
    rcases List.mem_append.mp hmove with hmove | hmove
    · exact hmoves move hmove
    · obtain rfl := List.mem_singleton.mp hmove
      exact .joined
  · rw [run_append, hrun, Option.bind_some, Session.run, hstep]
    rfl

end Draining

/-! ## The whole run -/

/-- **The listener is offered each message once.**  In a run that goes through all phases of a
replay, in which the listener accepts what it is offered and the worker ends in time, the listener
is offered, in this order and nothing else: what is replayed in the replay phase; of what is held
back and of what comes in in the safety phase, the first copies of the messages not offered by then;
and every live message that comes in after that.  If the replay phase replays no id twice, each id
that came in before the end of the safety phase is thus offered once before it. -/
theorem offers_of_run {settings : Settings} {origin : Origin} {outside : Outside}
    {early during safety later : List Move} {v : Directory.View} {endReplay endSafety : Envelope}
    {session : Uuid} {s₁ s : Session} (hpersistent : settings.persistent = true)
    (hearly : ∀ move ∈ early, Ordinary none move)
    (hasked : (start settings origin outside).run (early ++ [.request v]) = some s₁)
    (hsession : s₁.transport.reception.phase.session = some session)
    (hduring : ∀ move ∈ during, Ordinary (some session) move)
    (hendReplay : endReplay.decode ReplayPhaseEnded = .ok ⟨session⟩)
    (hsafety : ∀ move ∈ safety, Ordinary (some session) move)
    (hendSafety : endSafety.decode SafetyPhaseEnded = .ok ⟨session⟩)
    (hlater : ∀ move ∈ later, Ordinary (some session) move)
    (hrun :
      s₁.run (during ++ .receive endReplay :: (safety ++ .receive endSafety :: later)) = some s)
    (hwaiting : s.waiting = none) :
    let given := during.filterMap Move.replayed?
    let arrived := (early ++ during).filterMap Move.live? ++ safety.filterMap Move.arrival?
    let before := given ++ firstCopies (given.map Envelope.id) arrived
    s.offers = before ++ later.filterMap Move.live? ∧
      ((given.map Envelope.id).Nodup → (before.map Envelope.id).Nodup ∧
        ∀ id, id ∈ before.map Envelope.id ↔ id ∈ (given ++ arrived).map Envelope.id) := by
  intro given arrived before
  obtain ⟨s₀, hrunEarly, hrequest⟩ := run_append_eq_some hasked
  obtain ⟨s₁', hstepRequest, hnil⟩ := run_cons_eq_some hrequest
  obtain rfl := Option.some.inj hnil
  obtain ⟨s₂, hrunDuring, hrest⟩ := run_append_eq_some hrun
  obtain ⟨s₃, hstepReplay, hrest⟩ := run_cons_eq_some hrest
  obtain ⟨s₄, hrunSafety, hrest⟩ := run_append_eq_some hrest
  obtain ⟨s₅, hstepSafety, hrunLater⟩ := run_cons_eq_some hrest
  have hnone : early.filterMap Move.replayed? = [] :=
    List.filterMap_eq_nil_iff.mpr fun move hmove ↦
      Move.replayed?_of_ordinary_none (hearly move hmove)
  have hreplaying := ((replaying_start hpersistent origin outside).run hearly hrunEarly).request
    hstepRequest
  obtain rfl : (none : Option Uuid).getD s₀.outside.fresh.1 = session := by
    simpa [hreplaying.phase, Phase.session] using hsession
  have hdraining := (hreplaying.run hduring hrunDuring).endReplayPhase hendReplay hstepReplay
  have hsettled := ((hdraining.run hsafety hrunSafety).endSafetyPhase hendSafety hstepSafety).settle
    hlater hrunLater hwaiting
  refine ⟨?_, fun hnodup ↦ ⟨?_, fun id ↦ ?_⟩⟩
  · simpa [before, given, arrived, hnone] using hsettled.offers
  · exact nodup_ids_append_firstCopies hnodup arrived
  · exact mem_ids_append_firstCopies

/-- A message of the application. -/
def event (n : Nat) : Envelope where
  id := .fresh n
  type := ⟨"Tests.FakeEvent"⟩
  content := []
  origin := ⟨⟨"Abc.P.0"⟩, "tcp://Abc.P.0:1"⟩
  persistent := true
  persisted := false

/-- A message of the persistence service. -/
def fromService {α : Type} [Message α] (a : α) : Envelope :=
  .encode .zero a ⟨⟨"Abc.Persistence.0"⟩, "tcp://Abc.Persistence.0:1"⟩

theorem decode_fromService {α : Type} [Message α] {a : α}
    (h : JsonForm.decode (JsonForm.encode a) = some a) : (fromService a).decode α = .ok a := by
  simp [fromService, Envelope.encode, Envelope.decode, Envelope.is, h]

/-- A message comes in, and then the replay is asked for. -/
def asking : List Move := [.receive (event 1), .request ⟨{}, fun _ ↦ [], fun _ ↦ false⟩]

/-- The second message is replayed, and comes in live with the third. -/
def replaying : List Move :=
  [.receive (fromService (Replayed.mk (.fresh 0) (event 2))), .receive (event 2),
    .receive (event 3)]

/-- The third message is replayed while the worker is at the first. -/
def draining : List Move :=
  [.turn, .receive (fromService (Replayed.mk (.fresh 0) (event 3))), .judge .accepted, .turn, .turn,
    .receive (event 4)]

/-- The worker comes to its end, and then the fourth message comes in once more. -/
def settling : List Move :=
  [.judge .accepted, .turn, .turn, .judge .accepted, .turn, .joined, .receive (event 4)]

/-- All that goes on after the replay was asked for. -/
def oneReplay : List Move :=
  replaying ++ .receive (fromService (ReplayPhaseEnded.mk (.fresh 0))) ::
    (draining ++ .receive (fromService (SafetyPhaseEnded.mk (.fresh 0))) :: settling)

/-- What came in twice before the end is offered once. -/
theorem offers_oneReplay :
    ∃ s₁ s, (start { persistent := true } ⟨⟨"Abc.Self.0"⟩, ""⟩ {}).run asking = some s₁ ∧
      s₁.run oneReplay = some s ∧ s.waiting = none ∧
      s.offers = [{ event 2 with replayed := true }, event 1, event 3, event 4, event 4] := by
  have hasked : (((start { persistent := true } ⟨⟨"Abc.Self.0"⟩, ""⟩ {}).run asking).map fun s ↦
      s.transport.reception.phase.session) = some (some (.fresh 0)) := by decide +kernel
  have hdone : (((start { persistent := true } ⟨⟨"Abc.Self.0"⟩, ""⟩ {}).run asking).bind fun s ↦
      (s.run oneReplay).map Session.waiting) = some none := by decide +kernel
  obtain ⟨s₁, hs₁, hsession⟩ := Option.map_eq_some_iff.mp hasked
  rw [hs₁, Option.bind_some] at hdone
  obtain ⟨s, hs, hwaiting⟩ := Option.map_eq_some_iff.mp hdone
  have hreplayed2 : (fromService (Replayed.mk (.fresh 0) (event 2))).decode Replayed =
      .ok ⟨.fresh 0, event 2⟩ := decode_fromService (by decide +kernel)
  have hreplayed3 : (fromService (Replayed.mk (.fresh 0) (event 3))).decode Replayed =
      .ok ⟨.fresh 0, event 3⟩ := decode_fromService (by decide +kernel)
  have hlive (n : Nat) : isLive (event n) := rfl
  have hasking : ∀ move ∈ [Move.receive (event 1)], Ordinary none move := by
    simpa using .live (hlive 1)
  have hreplaying : ∀ move ∈ replaying, Ordinary (some (.fresh 0)) move := by
    simpa [replaying] using ⟨.replayed hreplayed2 rfl, .live (hlive 2), .live (hlive 3)⟩
  have hdraining : ∀ move ∈ draining, Ordinary (some (.fresh 0)) move := by
    simpa [draining] using ⟨.turn, .replayed hreplayed3 rfl, .accept, .turn, .live (hlive 4)⟩
  have hsettling : ∀ move ∈ settling, Ordinary (some (.fresh 0)) move := by
    simpa [settling] using ⟨.accept, .turn, .accept, .turn, .joined, .live (hlive 4)⟩
  have hendReplay : (fromService (ReplayPhaseEnded.mk (.fresh 0))).decode ReplayPhaseEnded =
      .ok ⟨.fresh 0⟩ := decode_fromService (by decide +kernel)
  have hendSafety : (fromService (SafetyPhaseEnded.mk (.fresh 0))).decode SafetyPhaseEnded =
      .ok ⟨.fresh 0⟩ := decode_fromService (by decide +kernel)
  obtain ⟨hoffers, -⟩ := offers_of_run rfl hasking hs₁ hsession hreplaying hendReplay hdraining
    hendSafety hsettling hs hwaiting
  have hgiven : replaying.filterMap Move.replayed? = [{ event 2 with replayed := true }] := by
    simp [replaying, Move.replayed?_of_decode hreplayed2, Move.replayed?_of_isLive (hlive _)]
  have harrived : draining.filterMap Move.arrival? =
      [{ event 3 with replayed := true }, event 4] := by
    have hturn : Move.turn.arrival? = none := rfl
    have hjudge : (Move.judge .accepted).arrival? = none := rfl
    simp [draining, hturn, hjudge, Move.arrival?_of_decode hreplayed3,
      Move.arrival?_of_isLive (hlive _)]
  refine ⟨s₁, s, hs₁, hs, hwaiting, ?_⟩
  rw [hoffers, hgiven, harrived]
  rfl

end Session

end ServiceBus.Durable
