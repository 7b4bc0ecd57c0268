import ServiceBus.Proofs.Durable.Duplicates

/-!
# What a move does to the queue

Messages that are held back go into a queue, and the worker takes them out again.  What a move does
to this queue, to the phase, to the worker and to what the listener was offered, is said once, by
`Session.Course`: there is one case for each thing that a move can do, and `course_of_step` says
that nothing else happens, as long as the listener does not break down.
-/

set_option autoImplicit false

namespace ServiceBus.Durable

namespace Move

/-- The message that a move brings in as one of a replay, as the listener gets to see it. -/
def replayedIn? (session : Uuid) : Move → Option Envelope
  | .receive m =>
    match m.decode Replayed with
    | .ok body =>
      if body.replay = session then some { body.message with replayed := true } else none
    | .error _ => none
  | _ => none

theorem live?_of_not_isLive {m : Envelope} (h : isLive m = false) : (receive m).live? = none := by
  simp [live?, h]

theorem replayedIn?_of_decode {m : Envelope} {body : Replayed} (h : m.decode Replayed = .ok body)
    (session : Uuid) : (receive m).replayedIn? session =
      if body.replay = session then some { body.message with replayed := true } else none := by
  simp [replayedIn?, h]

theorem replayedIn?_of_unread {m : Envelope} (h : ∀ body, m.decode Replayed ≠ .ok body)
    (session : Uuid) : (receive m).replayedIn? session = none := by
  cases hdecode : m.decode Replayed with
  | ok body => exact absurd hdecode (h body)
  | error failure => simp [replayedIn?, hdecode]

end Move

namespace Session

/-! ## What is held back, and what is not -/

/-- The message that a move puts into the queue: a live one while a replay is going on, and one that
is replayed in the safety phase. -/
def heldBy? (s : Session) (move : Move) : Option Envelope :=
  match s.transport.reception.phase with
  | .replay _ => move.live?
  | .safety session => move.live?.or (move.replayedIn? session)
  | .direct | .normal => none

/-- The live message that a move brings in the normal phase. -/
def directBy? (s : Session) (move : Move) : Option Envelope :=
  match s.transport.reception.phase with
  | .normal => move.live?
  | _ => none

/-- What the moves of a run bring in. -/
def gather (broughtBy? : Session → Move → Option Envelope) : Session → List Move → List Envelope
  | _, [] => []
  | s, move :: moves =>
    match s.step move with
    | some s' => (broughtBy? s move).toList ++ s'.gather broughtBy? moves
    | none => []

/-- The messages that were put into the queue in a run, oldest first. -/
abbrev held (s : Session) (moves : List Move) : List Envelope := s.gather heldBy? moves

/-- The live messages that came in in the normal phase, oldest first. -/
abbrev direct (s : Session) (moves : List Move) : List Envelope := s.gather directBy? moves

theorem gather_cons (broughtBy? : Session → Move → Option Envelope) {s s' : Session} {move : Move}
    (h : s.step move = some s') (moves : List Move) :
    s.gather broughtBy? (move :: moves) =
      (broughtBy? s move).toList ++ s'.gather broughtBy? moves := by
  rw [gather, h]

theorem gather_append (broughtBy? : Session → Move → Option Envelope) {s s' : Session}
    {moves : List Move} (h : s.run moves = some s') (later : List Move) :
    s.gather broughtBy? (moves ++ later) =
      s.gather broughtBy? moves ++ s'.gather broughtBy? later := by
  induction moves generalizing s with
  | nil =>
    obtain rfl := Option.some.inj h
    rfl
  | cons move moves ih =>
    obtain ⟨s₁, hstep, hrest⟩ := run_cons_eq_some h
    rw [List.cons_append, gather_cons _ hstep, gather_cons _ hstep, ih hrest, List.append_assoc]

/-! ## What a move does to the queue -/

/-- Of a session, what the way through the queue depends on. -/
structure Gist where
  /-- The phase. -/
  phase : Phase
  /-- The messages that are held back. -/
  queue : List Envelope
  /-- The worker. -/
  worker : Worker
  /-- Who waits for the worker. -/
  waiting : Option Waiting
  /-- What the listener was offered. -/
  offers : List Envelope

/-- The gist of a session. -/
def gist (s : Session) : Gist where
  phase := s.transport.reception.phase
  queue := s.transport.reception.queue
  worker := s.transport.reception.worker
  waiting := s.waiting
  offers := s.offers

variable {s s' : Session} {m : Envelope}

/-- What a move can do, unless the listener breaks down or messages are not kept for the peer. -/
inductive Course (s : Session) : Move → Gist → Prop
  /-- Nothing is done. -/
  | quiet {move : Move} (held : s.heldBy? move = none) (direct : s.directBy? move = none)
      (taken : s.takenBy? move = none) : Course s move s.gist
  /-- The replay is asked for. -/
  | asked {v : Directory.View} {session : Option Uuid} (session' : Option Uuid)
      (phase : s.gist.phase = .replay session) :
      Course s (.request v) { s.gist with phase := .replay session' }
  /-- A message is put into the queue. -/
  | held {m x : Envelope} (phase : s.gist.phase ≠ .normal)
      (held : s.heldBy? (.receive m) = some x) :
      Course s (.receive m) { s.gist with queue := s.gist.queue ++ [x] }
  /-- A message is replayed in the replay phase. -/
  | given {m : Envelope} {session : Option Uuid} (x : Envelope)
      (phase : s.gist.phase = .replay session) (held : s.heldBy? (.receive m) = none) :
      Course s (.receive m) { s.gist with offers := s.gist.offers ++ [x] }
  /-- A live message comes in in the normal phase. -/
  | direct {m : Envelope} (free : s.gist.waiting = none) (phase : s.gist.phase = .normal)
      (direct : s.directBy? (.receive m) = some m) :
      Course s (.receive m) { s.gist with offers := s.gist.offers ++ [m] }
  /-- The replay phase ends, and the worker starts. -/
  | started {m : Envelope} {session : Option Uuid} (session' : Uuid)
      (phase : s.gist.phase = .replay session) (held : s.heldBy? (.receive m) = none) :
      Course s (.receive m) { s.gist with phase := .safety session', worker := .idle }
  /-- The safety phase ends, and the worker is waited for. -/
  | closed {move : Move} {session : Uuid} (w : Waiting) (phase : s.gist.phase = .safety session)
      (held : s.heldBy? move = none) (taken : s.takenBy? move = none) :
      Course s move { s.gist with phase := .normal, waiting := some w }
  /-- The worker takes a message out of the queue. -/
  | took {m : Envelope} {rest : List Envelope} {w : Worker} (new : List Envelope)
      (idle : s.gist.worker = .idle) (queue : s.gist.queue = m :: rest)
      (worker : w = .idle ∨ w = .offering m) :
      Course s .turn
        { s.gist with queue := rest, worker := w, offers := s.gist.offers ++ new }
  /-- The worker finds nothing in the queue, and ends. -/
  | ended (idle : s.gist.worker = .idle) (queue : s.gist.queue = [])
      (phase : s.gist.phase = .normal) : Course s .turn { s.gist with worker := .ended }
  /-- The worker goes on. -/
  | judged {m : Envelope} {verdict : Verdict} (offering : s.gist.worker = .offering m) :
      Course s (.judge verdict) { s.gist with worker := .idle }
  /-- Whoever waits goes on, since the worker has ended or has been waited for long enough. -/
  | woke {move : Move}
      (kind : move = .joined ∧ s.transport.reception.workerEnded = true ∨ move = .late) :
      Course s move { s.gist with waiting := none }

/-- Nothing is held back or offered directly by a move that brings no message. -/
theorem heldBy?_directBy?_eq_none (s : Session) {move : Move} (hlive : move.live? = none)
    (hreplayed : ∀ session, move.replayedIn? session = none) :
    s.heldBy? move = none ∧ s.directBy? move = none := by
  rw [heldBy?, directBy?]
  cases s.transport.reception.phase <;> simp [hlive, hreplayed]

theorem heldBy?_directBy?_of_not_receive (s : Session) {move : Move}
    (h : ∀ m, move ≠ .receive m) : s.heldBy? move = none ∧ s.directBy? move = none := by
  cases move with
  | receive m => exact absurd rfl (h m)
  | _ => exact s.heldBy?_directBy?_eq_none rfl fun _ ↦ rfl

theorem course_live (hpersistent : s.transport.reception.phase ≠ .direct)
    (hlistener : s.transport.hasListener = true) (hwhole : s.transport.reception.worker ≠ .broken)
    (hfree : s.waiting = none) (hm : isLive m) :
    s.Course (.receive m)
      (s.follow (s.transport.react (s.transport.reception.receiveLive m) s.outside)).gist := by
  have hlive := Move.live?_of_isLive hm
  cases hphase : s.transport.reception.phase with
  | replay session =>
    rw [Reception.receiveLive_of_session (Or.inl ⟨session, hphase⟩) hwhole, follow_nothing]
    exact .held (by simp [gist, hphase]) (by simp [heldBy?, hphase, hlive])
  | safety session =>
    rw [Reception.receiveLive_of_session (Or.inr ⟨session, hphase⟩) hwhole, follow_nothing]
    exact .held (by simp [gist, hphase]) (by simp [heldBy?, hphase, hlive])
  | direct => exact absurd hphase hpersistent
  | normal =>
    rw [Reception.receiveLive_of_normal hphase, follow_offer hlistener, update_self]
    exact .direct hfree hphase (by simp [directBy?, hphase, hlive])

theorem course_replayed {body : Replayed} (hlistener : s.transport.hasListener = true)
    (hwhole : s.transport.reception.worker ≠ .broken) (hm : m.decode Replayed = .ok body) :
    s.Course (.receive m)
      (s.follow (s.transport.react (s.transport.reception.receiveReplayed body)
        s.outside)).gist := by
  have hlive := Move.live?_of_decode hm
  have hreplayed := Move.replayedIn?_of_decode hm
  have hdirect : s.directBy? (.receive m) = none := by
    rw [directBy?]
    split
    · exact hlive
    · rfl
  by_cases hsession : s.transport.reception.phase.session = some body.replay
  · cases hphase : s.transport.reception.phase with
    | replay session =>
      obtain rfl : session = some body.replay := by simpa [hphase, Phase.session] using hsession
      rw [Reception.receiveReplayed_of_replay hphase, follow_offer hlistener]
      exact .given _ hphase (by simp [heldBy?, hphase, hlive])
    | safety session =>
      obtain rfl : session = body.replay := by simpa [hphase, Phase.session] using hsession
      rw [Reception.receiveReplayed_of_safety hphase hwhole, follow_nothing]
      exact .held (by simp [gist, hphase]) (by simp [heldBy?, hphase, hlive, hreplayed])
    | direct => simp [hphase, Phase.session] at hsession
    | normal => simp [hphase, Phase.session] at hsession
  · rw [Reception.receiveReplayed, if_neg hsession, follow_nothing]
    refine .quiet ?_ hdirect rfl
    rw [heldBy?]
    split
    · exact hlive
    · next session hphase =>
      have hne : body.replay ≠ session := by
        rintro rfl
        simp [hphase, Phase.session] at hsession
      simp [hlive, hreplayed, hne]
    · rfl
    · rfl

theorem course_replayPhaseEnded (session : Uuid) (notices : List Notice)
    (hheld : s.heldBy? (.receive m) = none) (hdirect : s.directBy? (.receive m) = none) :
    s.Course (.receive m)
      (s.update (s.transport.reception.endReplayPhase session).1 notices).gist := by
  rw [Reception.endReplayPhase]
  split
  · next current hphase =>
    split
    · exact .started session hphase hheld
    · exact .quiet hheld hdirect rfl
  · exact .quiet hheld hdirect rfl

theorem course_safetyPhaseEnded (session : Uuid) (hheld : s.heldBy? (.receive m) = none)
    (hdirect : s.directBy? (.receive m) = none) :
    s.Course (.receive m)
      (s.follow (s.transport.react (s.transport.reception.endSafetyPhase session)
        s.outside)).gist := by
  rw [Reception.endSafetyPhase]
  split
  · next current hphase =>
    split
    · rw [follow_await]
      exact .closed (.phaseEnd session) hphase hheld rfl
    · rw [follow_nothing]
      exact .quiet hheld hdirect rfl
  · rw [follow_nothing]
    exact .quiet hheld hdirect rfl

theorem course_receive (hpersistent : s.transport.reception.phase ≠ .direct)
    (hlistener : s.transport.hasListener = true) (hwhole : s.transport.reception.worker ≠ .broken)
    (hstep : s.step (.receive m) = some s') : s.Course (.receive m) s'.gist := by
  cases hlive : isLive m with
  | true =>
    cases hwaiting : s.waiting with
    | none =>
      rw [step_receive hwaiting, Transport.receive_live hlive] at hstep
      obtain rfl := Option.some.inj hstep
      exact course_live hpersistent hlistener hwhole hwaiting hlive
    | some w =>
      rw [step_receive_of_waiting hwaiting (is_stopping_of_isLive hlive)] at hstep
      cases hstep
  | false =>
    have hnone (hunread : ∀ body, m.decode Replayed ≠ .ok body) :=
      s.heldBy?_directBy?_eq_none (Move.live?_of_not_isLive hlive)
        (Move.replayedIn?_of_unread hunread)
    cases received_of_step hstep with
    | aside unread reception listener waiting offers =>
      obtain ⟨hheld, hdirect⟩ := hnone unread
      have hgist : s'.gist = s.gist := by rw [gist, gist, reception, waiting, offers]
      rw [hgist]
      exact .quiet hheld hdirect rfl
    | live free kind => simp [hlive] at kind
    | replayed free kind => exact course_replayed hlistener hwhole kind
    | replayPhaseEnded free kind =>
      obtain ⟨hheld, hdirect⟩ := hnone (decode_replayed_ne_of_decode kind (by decide))
      exact course_replayPhaseEnded _ _ hheld hdirect
    | safetyPhaseEnded free kind =>
      obtain ⟨hheld, hdirect⟩ := hnone (decode_replayed_ne_of_decode kind (by decide))
      exact course_safetyPhaseEnded _ hheld hdirect

theorem course_turn (hlistener : s.transport.hasListener = true) :
    s.Course .turn s.work.gist := by
  obtain ⟨hheld, hdirect⟩ : s.heldBy? .turn = none ∧ s.directBy? .turn = none :=
    s.heldBy?_directBy?_of_not_receive (by simp)
  by_cases hidle : s.transport.reception.worker = .idle
  · cases hqueue : s.transport.reception.queue with
    | nil =>
      rw [work_of_rest (Reception.turn_of_nil hidle hqueue)]
      split
      · next hphase => exact .ended hidle hqueue hphase
      · exact .quiet hheld hdirect (by simp [takenBy?, hidle, hqueue])
    | cons m rest =>
      by_cases hseen : m.id ∈ s.transport.reception.offered
      · rw [work_of_skip (Reception.turn_of_mem hidle hqueue hseen)]
        have hcourse := Course.took [] hidle hqueue (.inl rfl)
        simpa [gist, update, hidle] using hcourse
      · rw [work_of_offer hlistener (Reception.turn_of_not_mem hidle hqueue hseen)]
        exact .took [m] hidle hqueue (.inr rfl)
  · rw [work_of_rest (Reception.turn_of_not_idle hidle)]
    refine .quiet hheld hdirect ?_
    rw [takenBy?]
    split
    · next h => exact absurd h hidle
    · rfl

theorem course_request {v : Directory.View} (hstep : s.step (.request v) = some s') :
    s.Course (.request v) s'.gist := by
  obtain ⟨hheld, hdirect⟩ : s.heldBy? (.request v) = none ∧ s.directBy? (.request v) = none :=
    s.heldBy?_directBy?_of_not_receive (by simp)
  obtain ⟨htransport, hwaiting', hwaiting, hoffers⟩ := step_request hstep
  rw [Transport.requestReplay_fst, Reception.open?] at htransport
  cases hphase : s.transport.reception.phase with
  | replay session =>
    cases session with
    | none =>
      have hgist : s'.gist = { s.gist with phase := .replay (some s.outside.fresh.1) } := by
        simp [gist, htransport, hphase, hwaiting, hwaiting', hoffers]
      rw [hgist]
      exact .asked _ hphase
    | some session =>
      have hgist : s'.gist = s.gist := by
        simp [gist, htransport, hphase, hwaiting, hwaiting', hoffers]
      rw [hgist]
      exact .quiet hheld hdirect rfl
  | _ =>
    have hgist : s'.gist = s.gist := by
      simp [gist, htransport, hphase, hwaiting, hwaiting', hoffers]
    rw [hgist]
    exact .quiet hheld hdirect rfl

theorem course_judge {verdict : Verdict} (hverdict : verdict ≠ .broken)
    (hstep : s.step (.judge verdict) = some s') : s.Course (.judge verdict) s'.gist := by
  rw [step] at hstep
  split at hstep
  · next m hoffering =>
    obtain rfl := Option.some.inj hstep
    cases verdict with
    | accepted => simpa [gist, update, Reception.judge, hoffering] using .judged hoffering
    | refused failure => simpa [gist, update, Reception.judge, hoffering] using .judged hoffering
    | broken => exact absurd rfl hverdict
  · cases hstep

theorem course_wake {move : Move} (hwake : s.wake = some s')
    (hkind : move = .joined ∧ s.transport.reception.workerEnded = true ∨ move = .late) :
    s.Course move s'.gist := by
  have hgist : s'.gist = { s.gist with waiting := none } := by
    obtain ⟨hnobody, hoffers, -, ⟨-, hreception⟩ | ⟨session, -, hreception⟩⟩ := wake_cases hwake
    · rw [gist, gist, hnobody, hoffers, hreception]
    · rw [gist, gist, hnobody, hoffers, hreception]
  rw [hgist]
  exact .woke hkind

theorem course_stop (hstep : s.step .stop = some s') : s.Course .stop s'.gist := by
  obtain ⟨hheld, hdirect⟩ : s.heldBy? .stop = none ∧ s.directBy? .stop = none :=
    s.heldBy?_directBy?_of_not_receive (by simp)
  rw [step] at hstep
  split at hstep
  · cases hstep
  · next hwaiting =>
    have hfree : s.waiting = none := by simpa using hwaiting
    obtain rfl := Option.some.inj hstep
    cases hphase : s.transport.reception.phase with
    | safety session =>
      simpa [gist, update, Reception.stop, hphase] using
        Course.closed .stop hphase hheld rfl
    | _ =>
      simpa [gist, update, Reception.stop, hphase, hfree] using
        Course.quiet hheld hdirect rfl

/-- **What a move does to the queue.** -/
theorem course_of_step {move : Move} (hpersistent : s.transport.reception.phase ≠ .direct)
    (hlistener : s.transport.hasListener = true) (hwhole : s.transport.reception.worker ≠ .broken)
    (hmove : move ≠ .judge .broken) (hstep : s.step move = some s') : s.Course move s'.gist := by
  cases move with
  | request v => exact course_request hstep
  | receive m => exact course_receive hpersistent hlistener hwhole hstep
  | turn =>
    obtain rfl := Option.some.inj hstep
    exact course_turn hlistener
  | judge verdict => exact course_judge (fun hverdict ↦ hmove (hverdict ▸ rfl)) hstep
  | joined =>
    rw [step] at hstep
    split at hstep
    · next hended => exact course_wake hstep (Or.inl ⟨rfl, hended⟩)
    · cases hstep
  | late =>
    rw [step] at hstep
    split at hstep
    · cases hstep
    · exact course_wake hstep (Or.inr rfl)
  | stop => exact course_stop hstep

/-- A message that is held back comes in at the end of the queue, and the worker takes one out at
its front. -/
theorem Course.queue_append {move : Move} {g : Gist} (h : s.Course move g) :
    s.gist.queue ++ (s.heldBy? move).toList = (s.takenBy? move).toList ++ g.queue := by
  have hnone {move : Move} (hmove : ∀ m, move ≠ .receive m) : s.heldBy? move = none :=
    (s.heldBy?_directBy?_of_not_receive hmove).1
  cases h with
  | quiet held direct taken => simp [held, taken]
  | asked session phase => simp [hnone, takenBy?]
  | held phase held => simp [held, takenBy?]
  | given x phase held => simp [held, takenBy?]
  | direct free phase direct =>
    have hheld (m : Envelope) : s.heldBy? (.receive m) = none := by
      rw [heldBy?, show s.transport.reception.phase = .normal from phase]
    simp [hheld, takenBy?]
  | started session phase held => simp [held, takenBy?]
  | closed w phase held taken => simp [held, taken]
  | took new idle queue worker =>
    have hidle : s.transport.reception.worker = .idle := idle
    have hqueue : s.transport.reception.queue = _ := queue
    simp [hnone, takenBy?, hidle, hqueue, gist]
  | ended idle queue phase =>
    have hqueue : s.transport.reception.queue = [] := queue
    cases hworker : s.transport.reception.worker <;> simp [hnone, takenBy?, hqueue, hworker, gist]
  | judged offering => simp [hnone, takenBy?]
  | woke kind =>
    obtain ⟨rfl, -⟩ | rfl := kind
    · simp [hnone, takenBy?]
    · simp [hnone, takenBy?]

/-- What a move has the listener offered: what comes in directly, or what the worker or the replay
phase brings. -/
theorem Course.offers_eq {move : Move} (h : s.Course move s'.gist) :
    (s'.offers = s.offers ∧ s.directBy? move = none) ∨
      (∃ new, s'.offers = s.offers ++ new ∧ s.directBy? move = none ∧ s.isEarly move = true ∧
        ((∃ session, s.gist.phase = .replay session) ∨ s.gist.worker = .idle)) ∨
      ∃ m, s'.offers = s.offers ++ [m] ∧ s.directBy? move = some m ∧ s.isEarly move = false ∧
        s'.gist.phase = .normal ∧ s'.gist.waiting = none := by
  have hoffers : s'.offers = s'.gist.offers := rfl
  generalize s'.gist = g at h hoffers ⊢
  have hnone {move : Move} (hmove : ∀ m, move ≠ .receive m) : s.directBy? move = none :=
    (s.heldBy?_directBy?_of_not_receive hmove).2
  have hnotNormal {move : Move} (hphase : s.gist.phase ≠ .normal) : s.directBy? move = none := by
    rw [directBy?]
    split
    · next hnormal => exact absurd hnormal hphase
    · rfl
  cases h with
  | quiet held direct taken => exact Or.inl ⟨hoffers, direct⟩
  | asked session phase => exact Or.inl ⟨hoffers, hnone (by simp)⟩
  | held phase held => exact Or.inl ⟨hoffers, hnotNormal phase⟩
  | given x phase held =>
    refine Or.inr (Or.inl ⟨[x], hoffers, hnotNormal (by simp [phase]), ?_, Or.inl ⟨_, phase⟩⟩)
    have hphase : s.transport.reception.phase = .replay _ := phase
    simp [isEarly, hphase]
  | direct free phase direct =>
    refine Or.inr (Or.inr ⟨_, hoffers, direct, ?_, phase, free⟩)
    have hphase : s.transport.reception.phase = .normal := phase
    simp [isEarly, hphase]
  | started session phase held => exact Or.inl ⟨hoffers, hnotNormal (by simp [phase])⟩
  | closed w phase held taken => exact Or.inl ⟨hoffers, hnotNormal (by simp [phase])⟩
  | took new idle queue worker =>
    exact Or.inr (Or.inl ⟨new, hoffers, hnone (by simp), rfl, Or.inr idle⟩)
  | ended idle queue phase => exact Or.inl ⟨hoffers, hnone (by simp)⟩
  | judged offering => exact Or.inl ⟨hoffers, hnone (by simp)⟩
  | woke kind =>
    refine Or.inl ⟨hoffers, hnone ?_⟩
    obtain ⟨rfl, -⟩ | rfl := kind
    · simp
    · simp

/-- Once the phase is normal and nobody waits, this stays so. -/
theorem Course.free {move : Move} {g : Gist} (h : s.Course move g)
    (hnormal : s.gist.phase = .normal) (hnobody : s.gist.waiting = none) :
    g.phase = .normal ∧ g.waiting = none := by
  cases h with
  | quiet held direct taken => exact ⟨hnormal, hnobody⟩
  | asked session phase => cases hnormal.symm.trans phase
  | held phase held => exact ⟨hnormal, hnobody⟩
  | given x phase held => exact ⟨hnormal, hnobody⟩
  | direct free phase direct => exact ⟨hnormal, hnobody⟩
  | started session phase held => cases hnormal.symm.trans phase
  | closed w phase held taken => cases hnormal.symm.trans phase
  | took new idle queue worker => exact ⟨hnormal, hnobody⟩
  | ended idle queue phase => exact ⟨hnormal, hnobody⟩
  | judged offering => exact ⟨hnormal, hnobody⟩
  | woke kind => exact ⟨hnormal, rfl⟩

end Session

end ServiceBus.Durable
