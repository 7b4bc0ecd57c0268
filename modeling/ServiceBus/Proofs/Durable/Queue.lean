import ServiceBus.Proofs.Durable.Course

/-!
# Through the queue

While nothing breaks down, no message is lost on its way through the queue: what was held back is,
in this order, what the worker has taken and what is still in the queue (`Holds.kept`).

Whoever ends the safety phase waits until the worker has ended.  If that is in time, the listener
was offered whatever was held back, and live messages are offered after that; if the wait is given
up before, a live message goes before what is in the queue then, and before nothing else.
-/

set_option autoImplicit false

namespace ServiceBus.Durable

namespace Session

variable {s s' : Session} {m : Envelope}

/-! ## The stages of a run -/

/-- How the worker, the phase and whoever waits go together after some moves. -/
structure Staged (made : List Move) (g : Gist) : Prop where
  /-- There is a worker from the end of the replay phase on. -/
  absent : g.worker = .absent ↔ ∃ session, g.phase = .replay session
  /-- The worker ends when nothing is left in the queue, and nothing comes into it any more. -/
  ended : g.worker = .ended → g.queue = [] ∧ g.phase = .normal
  /-- Nothing has broken down. -/
  whole : g.worker ≠ .broken
  /-- The worker is waited for in the normal phase. -/
  waiting : g.waiting ≠ none → g.phase = .normal
  /-- Unless it was late, the worker has ended once it is not waited for any more. -/
  settled : .late ∉ made → g.phase = .normal → g.waiting = none → g.worker = .ended

variable {made : List Move}

theorem staged_start {settings : Settings} (h : settings.persistent = true) (origin : Origin)
    (outside : Outside) : Staged [] (start settings origin outside).gist := by
  have hphase : (start settings origin outside).gist.phase = .replay none := by
    simp [gist, start, Transport.ofSettings, Reception.start, h]
  constructor
  · exact iff_of_true rfl ⟨none, hphase⟩
  · exact fun hended ↦ by cases hended
  · exact fun hbroken ↦ by cases hbroken
  · exact fun hwaiting ↦ absurd rfl hwaiting
  · exact fun _ hnormal ↦ by cases hphase.symm.trans hnormal

theorem Staged.mono {g : Gist} (h : Staged made g) (move : Move) : Staged (made ++ [move]) g :=
  { h with settled := fun hlate ↦ h.settled fun hmem ↦ hlate (List.mem_append_left _ hmem) }

/-- The worker that has not ended goes on. -/
theorem Staged.goOn {g : Gist} {w : Worker} (h : Staged made g)
    (hbefore : g.worker = .idle ∨ ∃ m, g.worker = .offering m)
    (hafter : w = .idle ∨ ∃ m, w = .offering m) (queue offers : List Envelope) :
    Staged made { g with queue, worker := w, offers } := by
  have hworking {w : Worker} (hw : w = .idle ∨ ∃ m, w = .offering m) :
      w ≠ .absent ∧ w ≠ .ended ∧ w ≠ .broken := by
    obtain rfl | ⟨m, rfl⟩ := hw <;> exact ⟨nofun, nofun, nofun⟩
  obtain ⟨hpresent, hgoing, -⟩ := hworking hbefore
  obtain ⟨hpresent', hgoing', hwhole'⟩ := hworking hafter
  refine ⟨iff_of_false hpresent' (mt h.absent.mpr hpresent), fun hended ↦ absurd hended hgoing',
    hwhole', h.waiting, fun hlate hnormal hnobody ↦ ?_⟩
  exact absurd (h.settled hlate hnormal hnobody) hgoing

/-- In the normal phase the worker that can do nothing any more has ended. -/
theorem Staged.ended_of_workerEnded (h : Staged made s.gist) (hnormal : s.gist.phase = .normal)
    (hended : s.transport.reception.workerEnded = true) : s.gist.worker = .ended := by
  have hpresent : s.transport.reception.worker ≠ .absent := mt h.absent.mp (by simp [hnormal])
  have hwhole : s.transport.reception.worker ≠ .broken := h.whole
  rw [Reception.workerEnded] at hended
  split at hended
  · next habsent => exact absurd habsent hpresent
  · next hbroken => exact absurd hbroken hwhole
  · next hworker => exact hworker
  · cases hended
  · cases hended

theorem Staged.step {move : Move} {g : Gist} (h : Staged made s.gist) (hcourse : s.Course move g) :
    Staged (made ++ [move]) g := by
  cases hcourse with
  | quiet held direct taken => exact h.mono move
  | asked session phase =>
    have habsent := h.absent.mpr ⟨_, phase⟩
    refine ⟨iff_of_true habsent ⟨session, rfl⟩, fun hended ↦ ?_, h.whole, fun hwaiting ↦ ?_,
      fun _ hnormal ↦ ?_⟩
    · cases habsent.symm.trans hended
    · cases phase.symm.trans (h.waiting hwaiting)
    · cases hnormal
  | held phase held =>
    exact { h.mono _ with ended := fun hended ↦ absurd (h.ended hended).2 phase }
  | given x phase held => exact { h.mono _ with }
  | direct free phase direct => exact { h.mono _ with }
  | started session phase held =>
    refine ⟨iff_of_false nofun nofun, nofun, nofun, fun hwaiting ↦ ?_, nofun⟩
    cases phase.symm.trans (h.waiting hwaiting)
  | closed w phase held taken =>
    have hnotReplay : ¬ ∃ session, s.gist.phase = .replay session := by simp [phase]
    refine ⟨iff_of_false (mt h.absent.mp hnotReplay) nofun, fun hended ↦ ?_, h.whole,
      fun _ ↦ rfl, fun _ _ hnobody ↦ ?_⟩
    · cases phase.symm.trans (h.ended hended).2
    · cases hnobody
  | took new idle queue worker =>
    exact (h.mono _).goOn (Or.inl idle) (worker.imp_right fun hoffering ↦ ⟨_, hoffering⟩) _ _
  | ended idle queue phase =>
    have hnotReplay : ¬ ∃ session, s.gist.phase = .replay session := by simp [phase]
    exact ⟨iff_of_false nofun hnotReplay, fun _ ↦ ⟨queue, phase⟩, nofun, h.waiting,
      fun _ _ _ ↦ rfl⟩
  | judged offering => exact (h.mono _).goOn (Or.inr ⟨_, offering⟩) (Or.inl rfl) _ _
  | woke kind =>
    refine ⟨h.absent, h.ended, h.whole, nofun, fun hlate hnormal _ ↦ ?_⟩
    obtain ⟨rfl, hended⟩ | rfl := kind
    · exact h.ended_of_workerEnded hnormal hended
    · simp at hlate

/-! ## What is held back is offered -/

/-- What became of the messages that were held back and of those that were offered directly. -/
structure Holds (made : List Move) (held direct : List Envelope) (l : Ledger) (g : Gist) : Prop
    extends Staged made g where
  /-- What was held back was taken by the worker, or is in the queue. -/
  kept : held = l.taken ++ l.late ++ g.queue
  /-- Nothing is offered directly before the phase is normal and the wait is over. -/
  free : direct ≠ [] → g.phase = .normal ∧ g.waiting = none
  /-- Unless the worker was late, what is offered directly comes after all the rest. -/
  order : .late ∉ made → g.offers = l.offers ++ direct

variable {held direct : List Envelope} {l : Ledger}

theorem enter_taken_append_late (s s' : Session) (move : Move)
    (h : l.forgotten = false → l.late = []) :
    (s.enter s' l move).taken ++ (s.enter s' l move).late =
      l.taken ++ l.late ++ (s.takenBy? move).toList := by
  cases hforgotten : l.forgotten with
  | false => simp [enter, hforgotten, h hforgotten]
  | true => simp [enter, hforgotten]

theorem enter_offers {move : Move} {new : List Envelope}
    (h : s'.offers = s.offers ++ new) (hearly : new = [] ∨ s.isEarly move = true) :
    (s.enter s' l move).offers = l.offers ++ new := by
  obtain rfl | hearly := hearly
  · simp [enter, h]
  · simp [enter, h, hearly]

theorem Holds.step {move : Move} (h : Holds made held direct l s.gist) (haccounts : s.Accounts l)
    (hcourse : s.Course move s'.gist) :
    Holds (made ++ [move]) (held ++ (s.heldBy? move).toList) (direct ++ (s.directBy? move).toList)
      (s.enter s' l move) s'.gist := by
  have hoffers := hcourse.offers_eq
  refine ⟨h.toStaged.step hcourse, ?_, fun hdirect ↦ ?_, fun hlate ↦ ?_⟩
  · rw [enter_taken_append_late _ _ _ haccounts.late, h.kept, List.append_assoc,
      hcourse.queue_append, List.append_assoc, List.append_assoc, List.append_assoc]
  · by_cases hbefore : direct = []
    · obtain ⟨-, hnone⟩ | ⟨new, -, hnone, -⟩ | ⟨m, -, -, -, hfree⟩ := hoffers
      · simp [hbefore, hnone] at hdirect
      · simp [hbefore, hnone] at hdirect
      · exact hfree
    · obtain ⟨hnormal, hnobody⟩ := h.free hbefore
      exact hcourse.free hnormal hnobody
  · have hintime : .late ∉ made := fun hmem ↦ hlate (List.mem_append_left _ hmem)
    have hbefore : s.offers = l.offers ++ direct := h.order hintime
    show s'.offers = _
    obtain ⟨hsame, hnone⟩ | ⟨new, hnew, hnone, hearly, hstage⟩ | ⟨m, hm, hdirect, hearly, -⟩ :=
      hoffers
    · have hnothing : s'.offers = s.offers ++ [] := by simp [hsame]
      rw [enter_offers hnothing (Or.inl rfl), hnone, hsame, hbefore]
      simp
    · -- whatever is offered by the worker comes before all that is offered directly
      have hnil : direct = [] := Classical.byContradiction fun hdirect ↦ by
        obtain ⟨hnormal, hnobody⟩ := h.free hdirect
        obtain ⟨session, hreplay⟩ | hidle := hstage
        · cases hnormal.symm.trans hreplay
        · cases hidle.symm.trans (h.settled hintime hnormal hnobody)
      rw [enter_offers hnew (Or.inr hearly), hnone, hnew, hbefore, hnil]
      simp
    · have hkept : (s.enter s' l move).offers = l.offers := by simp [enter, hearly]
      rw [hkept, hdirect, hm, hbefore, List.append_assoc]
      rfl

theorem Holds.run {moves : List Move} (h : Holds made held direct l s.gist)
    (haccounts : s.Accounts l) (hmoves : .judge .broken ∉ moves) (hrun : s.run moves = some s') :
    Holds (made ++ moves) (held ++ s.held moves) (direct ++ s.direct moves) (s.ledger l moves)
      s'.gist := by
  induction moves generalizing s made held direct l with
  | nil =>
    obtain rfl := Option.some.inj hrun
    simpa [gather, ledger] using h
  | cons move moves ih =>
    obtain ⟨s₁, hstep, hrest⟩ := run_cons_eq_some hrun
    obtain ⟨hmove, hmoves⟩ := List.ne_and_not_mem_of_not_mem_cons hmoves
    have hcourse := course_of_step haccounts.persistent haccounts.listener h.whole
      (fun heq ↦ hmove heq.symm) hstep
    have hnext := ih (h.step haccounts hcourse) (haccounts.step hstep) hmoves hrest
    rw [ledger, hstep]
    simpa [gather_cons _ hstep] using hnext

theorem holds_start {settings : Settings} (h : settings.persistent = true) (origin : Origin)
    (outside : Outside) : Holds [] [] [] {} (start settings origin outside).gist :=
  ⟨staged_start h origin outside, rfl, fun hdirect ↦ absurd rfl hdirect, fun _ ↦ rfl⟩

/-- What the worker has taken, the listener was offered, unless it was a copy. -/
theorem Accounts.mem_ids_offers (h : s.Accounts l) (hm : m ∈ l.taken ++ l.late) :
    m.id ∈ s.offers.map Envelope.id := by
  refine (h.sublist.map Envelope.id).subset ?_
  rw [h.offers, List.map_append, List.mem_append, mem_ids_append_firstCopies, mem_ids_firstCopies]
  obtain htaken | hlate := List.mem_append.mp hm
  · exact Or.inl (List.mem_map_of_mem (List.mem_append_right _ htaken))
  · exact Or.inr ⟨List.mem_map_of_mem hlate, List.not_mem_nil⟩

/-! ## The end of the wait -/

/-- The worker goes on to its end, the listener answers whatever it is offered, and whoever waits
goes on. -/
inductive Drains (answer : Envelope → Verdict) : Session → List Move → Session → Prop
  | joined {s s' : Session} (step : s.step .joined = some s') : Drains answer s [.joined] s'
  | turn {s s' : Session} {moves : List Move} (rest : Drains answer s.work moves s') :
      Drains answer s (.turn :: moves) s'
  | judge {s s₁ s' : Session} {m : Envelope} {moves : List Move}
      (offering : s.transport.reception.worker = .offering m)
      (step : s.step (.judge (answer m)) = some s₁) (rest : Drains answer s₁ moves s') :
      Drains answer s (.judge (answer m) :: moves) s'

section Draining

variable {answer : Envelope → Verdict} {moves : List Move}

theorem Drains.run (h : Drains answer s moves s') : s.run moves = some s' := by
  induction h with
  | joined step => rw [Session.run, step, Option.bind_some, Session.run]
  | turn rest ih => exact ih
  | judge offering step rest ih => rw [Session.run, step, Option.bind_some, ih]

/-- It is not given up to wait, and nothing breaks down unless the listener does. -/
theorem Drains.not_mem (hanswer : ∀ m, answer m ≠ .broken) (h : Drains answer s moves s') :
    .late ∉ moves ∧ .judge .broken ∉ moves := by
  induction h with
  | joined step => simp
  | turn rest ih => simpa using ih
  | @judge s s₁ s' m moves offering step rest ih => simpa using ⟨ih.1, (hanswer m).symm, ih.2⟩

theorem step_judge {verdict : Verdict} (hverdict : verdict ≠ .broken)
    (h : s.transport.reception.worker = .offering m) :
    ∃ notices, s.step (.judge verdict) =
      some (s.update { s.transport.reception with worker := .idle } notices) := by
  cases verdict with
  | accepted => exact ⟨[], step_accept h⟩
  | refused failure =>
    exact ⟨[.heldDeliveryFailed m.id failure], by simp [step, Reception.judge, h]⟩
  | broken => exact absurd rfl hverdict

/-- Whoever waits goes on when the worker has ended. -/
theorem exists_drains_of_ended (answer : Envelope → Verdict) {w : Waiting}
    (hwaiting : s.waiting = some w) (hphase : s.transport.reception.phase = .normal)
    (hended : s.transport.reception.worker = .ended) :
    ∃ s', Drains answer s [.joined] s' ∧ s'.waiting = none ∧
      s'.transport.reception.phase = .normal := by
  obtain ⟨s', hwake⟩ : ∃ s', s.wake = some s' := by simp [wake, hwaiting]
  have hstep : s.step .joined = some s' := by
    rw [step, Reception.workerEnded, hended]
    exact hwake
  obtain ⟨hnobody, -, -, ⟨-, hreception⟩ | ⟨session, -, hreception⟩⟩ := wake_cases hwake
  · exact ⟨s', .joined hstep, hnobody, by rw [hreception, hphase]⟩
  · exact ⟨s', .joined hstep, hnobody, by rw [hreception]; exact hphase⟩

/-- The worker that waits for a message comes to its end with the last one in the queue. -/
theorem exists_drains_of_idle {w : Waiting} (hanswer : ∀ m, answer m ≠ .broken)
    (hlistener : s.transport.hasListener = true) (hwaiting : s.waiting = some w)
    (hphase : s.transport.reception.phase = .normal)
    (hidle : s.transport.reception.worker = .idle) :
    ∃ moves s', Drains answer s moves s' ∧ s'.waiting = none ∧
      s'.transport.reception.phase = .normal := by
  induction hqueue : s.transport.reception.queue generalizing s with
  | nil =>
    have hwork := work_of_rest (Reception.turn_of_nil hidle hqueue)
    rw [if_pos hphase] at hwork
    obtain ⟨s', hdrains, hend⟩ := exists_drains_of_ended (s := s.work) answer
      (by rw [hwork]; exact hwaiting) (by rw [hwork]; exact hphase) (by rw [hwork]; rfl)
    exact ⟨_, s', .turn hdrains, hend⟩
  | cons m rest ih =>
    by_cases hseen : m.id ∈ s.transport.reception.offered
    · have hwork := work_of_skip (Reception.turn_of_mem hidle hqueue hseen)
      obtain ⟨moves, s', hdrains, hend⟩ := ih (s := s.work) (by rw [hwork]; exact hlistener)
        (by rw [hwork]; exact hwaiting) (by rw [hwork]; exact hphase) (by rw [hwork]; exact hidle)
        (by rw [hwork]; rfl)
      exact ⟨_, s', .turn hdrains, hend⟩
    · -- the listener has to answer before the worker goes on
      have hwork := work_of_offer hlistener (Reception.turn_of_not_mem hidle hqueue hseen)
      have hoffering : s.work.transport.reception.worker = .offering m := by rw [hwork]; rfl
      obtain ⟨notices, hjudge⟩ := step_judge (hanswer m) hoffering
      obtain ⟨moves, s', hdrains, hend⟩ := ih
        (s := s.work.update { s.work.transport.reception with worker := .idle } notices)
        (by rw [hwork]; exact hlistener) (by rw [hwork]; exact hwaiting)
        (by rw [hwork]; exact hphase) rfl (by rw [hwork]; rfl)
      exact ⟨_, s', .turn (.judge hoffering hjudge hdrains), hend⟩

/-- Whatever the listener answers, the wait can come to its end. -/
theorem Holds.exists_drains {w : Waiting} (h : Holds made held direct l s.gist)
    (hlistener : s.transport.hasListener = true) (hwaiting : s.waiting = some w)
    (hanswer : ∀ m, answer m ≠ .broken) :
    ∃ moves s', Drains answer s moves s' ∧ s'.waiting = none ∧
      s'.transport.reception.phase = .normal := by
  have hphase : s.transport.reception.phase = .normal := h.waiting (by simp [gist, hwaiting])
  have hpresent : s.transport.reception.worker ≠ .absent := by
    refine mt h.absent.mp ?_
    simp [gist, hphase]
  cases hworker : s.transport.reception.worker with
  | absent => exact absurd hworker hpresent
  | idle => exact exists_drains_of_idle hanswer hlistener hwaiting hphase hworker
  | offering m =>
    obtain ⟨notices, hjudge⟩ := step_judge (hanswer m) hworker
    obtain ⟨moves, s', hdrains, hend⟩ := exists_drains_of_idle
      (s := s.update { s.transport.reception with worker := .idle } notices) hanswer hlistener
      hwaiting hphase rfl
    exact ⟨_, s', .judge hworker hjudge hdrains, hend⟩
  | broken => exact absurd hworker h.whole
  | ended =>
    obtain ⟨s', hdrains, hend⟩ := exists_drains_of_ended answer hwaiting hphase hworker
    exact ⟨_, s', hdrains, hend⟩

end Draining

/-! ## Every run -/

/-- The account of a whole run, the listener never breaking down. -/
theorem holds_run {settings : Settings} {origin : Origin} {outside : Outside} {moves : List Move}
    (hpersistent : settings.persistent = true)
    (hrun : (start settings origin outside).run moves = some s)
    (hwhole : .judge .broken ∉ moves) :
    s.Accounts ((start settings origin outside).ledger {} moves) ∧
      Holds moves ((start settings origin outside).held moves)
        ((start settings origin outside).direct moves)
        ((start settings origin outside).ledger {} moves) s.gist := by
  have haccounts := accounts_start hpersistent origin outside
  refine ⟨haccounts.run hrun, ?_⟩
  simpa using (holds_start hpersistent origin outside).run haccounts hwhole hrun

/-- Nothing was taken late. -/
theorem Accounts.late_eq_nil {s₀ : Session} {moves : List Move}
    (h : s.Accounts (s₀.ledger {} moves)) (hintime : .late ∉ moves) :
    (s₀.ledger {} moves).late = [] := by
  refine h.late (Bool.eq_false_iff.mpr fun hforgotten ↦ ?_)
  obtain hbefore | hmem := late_mem_of_forgotten hforgotten
  · cases hbefore
  · exact hintime hmem

/-- Once the wait is over without the worker being late, all that was held back was offered. -/
theorem Holds.offers_of_settled (h : Holds made held direct l s.gist) (haccounts : s.Accounts l)
    (hlate : l.late = []) (hintime : .late ∉ made)
    (hnormal : s.transport.reception.phase = .normal) (hnobody : s.waiting = none) :
    s.offers = l.replayed ++ firstCopies (l.replayed.map Envelope.id) held ++ direct ∧
      ∀ m ∈ held, m.id ∈ s.offers.map Envelope.id := by
  have hqueue : s.gist.queue = [] := (h.ended (h.settled hintime hnormal hnobody)).1
  have hkept : held = l.taken ++ l.late := by rw [h.kept, hqueue, List.append_nil]
  refine ⟨?_, fun m hm ↦ haccounts.mem_ids_offers (hkept ▸ hm)⟩
  have hoffers : s.offers = l.offers ++ direct := h.order hintime
  rw [hoffers, haccounts.offers, hkept, hlate, firstCopies, List.append_nil, List.append_nil]

/-- **Whatever was held back is offered.**  In every run of a transport that messages are kept for,
in which the listener does not break down and the worker is not late: once the safety phase is over
the listener was offered, in this order and nothing else, what was replayed in the replay phase, the
first copies of what was held back, whether it accepted or refused them, and what came in directly
after that.  And whoever waits for the end of the safety phase, whatever the listener answers, there
is a way for the worker to come to its end, so that the safety phase is over. -/
theorem offers_of_held {settings : Settings} {origin : Origin} {outside : Outside}
    {moves : List Move} {s : Session} (hpersistent : settings.persistent = true)
    (hrun : (start settings origin outside).run moves = some s)
    (hwhole : .judge .broken ∉ moves) (hintime : .late ∉ moves) :
    let s₀ := start settings origin outside
    let l := s₀.ledger {} moves
    (s.transport.reception.phase = .normal → s.waiting = none →
      s.offers = l.replayed ++ firstCopies (l.replayed.map Envelope.id) (s₀.held moves) ++
          s₀.direct moves ∧
        ∀ m ∈ s₀.held moves, m.id ∈ s.offers.map Envelope.id) ∧
    ∀ w, s.waiting = some w → ∀ answer : Envelope → Verdict, (∀ m, answer m ≠ .broken) →
      ∃ later s', s.Drains answer later s' ∧ s'.waiting = none ∧
        s'.transport.reception.phase = .normal ∧
        ∀ m ∈ s₀.held moves, m.id ∈ s'.offers.map Envelope.id := by
  intro s₀ l
  obtain ⟨haccounts, hholds⟩ := holds_run hpersistent hrun hwhole
  refine ⟨hholds.offers_of_settled haccounts (haccounts.late_eq_nil hintime) hintime,
    fun w hwaiting answer hanswer ↦ ?_⟩
  obtain ⟨later, s', hdrains, hnobody, hnormal⟩ :=
    hholds.exists_drains haccounts.listener hwaiting hanswer
  obtain ⟨hnotLate, hnotBroken⟩ := hdrains.not_mem hanswer
  have hrun' : s₀.run (moves ++ later) = some s' := by
    rw [run_append, hrun, Option.bind_some, hdrains.run]
  have hintime' : .late ∉ moves ++ later := by simp [hintime, hnotLate]
  obtain ⟨haccounts', hholds'⟩ := holds_run hpersistent hrun' (by simp [hwhole, hnotBroken])
  obtain ⟨-, hoffered⟩ := hholds'.offers_of_settled haccounts' (haccounts'.late_eq_nil hintime')
    hintime' hnormal hnobody
  refine ⟨later, s', hdrains, hnobody, hnormal, fun m hm ↦ hoffered m ?_⟩
  rw [Session.held, gather_append _ hrun]
  exact List.mem_append_left _ hm

/-- The worker offers the first of two messages that were held back. -/
def queued : List Move :=
  [asks, .receive (event 1), .receive (event 2),
    .receive (fromService (ReplayPhaseEnded.mk (.fresh 0))), .turn]

/-- The safety phase ends while the listener is at the first message. -/
def ending : List Move := queued ++ [.receive (fromService (SafetyPhaseEnded.mk (.fresh 0)))]

/-- The listener refuses the first message, and accepts the second one. -/
def refusesFirst : List Move :=
  ending ++ [.judge (.refused .serialization), .turn, .judge .accepted, .turn, .joined,
    .receive (event 3)]

/-- A message that is refused does not keep the next one from being offered. -/
theorem offers_refusesFirst :
    (∃ s, (start { persistent := true } ⟨⟨"Abc.Self.0"⟩, ""⟩ {}).run refusesFirst = some s ∧
      s.offers = [event 1, event 2, event 3]) ∧
    ∃ s, (start { persistent := true } ⟨⟨"Abc.Self.0"⟩, ""⟩ {}).run ending = some s ∧
      s.waiting = some (.phaseEnd (.fresh 0)) ∧
      ∃ later s', s.Drains (fun _ ↦ .refused .serialization) later s' ∧
        (event 2).id ∈ s'.offers.map Envelope.id := by
  have hdone :
      let s₀ := start { persistent := true } ⟨⟨"Abc.Self.0"⟩, ""⟩ {}
      (s₀.run refusesFirst).map (fun s ↦ (s.transport.reception.phase, s.waiting)) =
          some (.normal, none) ∧
        (s₀.run ending).map Session.waiting = some (some (.phaseEnd (.fresh 0))) ∧
        (s₀.ledger {} refusesFirst).replayed = [] ∧ s₀.held ending = [event 1, event 2] ∧
        s₀.held refusesFirst = [event 1, event 2] ∧ s₀.direct refusesFirst = [event 3] := by
    decide +kernel
  obtain ⟨hend, hwaiting, hreplayed, hheldBefore, hheld, hdirect⟩ := hdone
  obtain ⟨s, hrun, hfinal⟩ := Option.map_eq_some_iff.mp hend
  obtain ⟨hnormal, hnobody⟩ := Prod.mk.inj hfinal
  obtain ⟨s₁, hrun₁, hwaiting⟩ := Option.map_eq_some_iff.mp hwaiting
  obtain ⟨hoffers, -⟩ := (offers_of_held rfl hrun
    (by simp [refusesFirst, ending, queued, asks])
    (by simp [refusesFirst, ending, queued, asks])).1 hnormal hnobody
  obtain ⟨later, s', hdrains, -, -, hoffered⟩ := (offers_of_held rfl hrun₁
    (by simp [ending, queued, asks]) (by simp [ending, queued, asks])).2 _ hwaiting
    (fun _ ↦ .refused .serialization) nofun
  refine ⟨⟨s, hrun, ?_⟩, s₁, hrun₁, hwaiting, later, s', hdrains, hoffered _ ?_⟩
  · rw [hoffers, hreplayed, hheld, hdirect]
    rfl
  · simp [hheldBefore]

/-- The listener breaks down at the first message. -/
def breaksAtFirst : List Move :=
  queued ++ [.judge .broken, .receive (fromService (SafetyPhaseEnded.mk (.fresh 0))), .joined]

/-- The listener has not yet answered when the worker has been waited for long enough. -/
def answersLate : List Move := ending ++ [.late]

/-- **A message that was held back may not have been offered at the end of the safety phase**: the
listener has broken down at the message before, or is still at it. -/
theorem not_offered_breaksAtFirst_answersLate :
    let s₀ := start { persistent := true } ⟨⟨"Abc.Self.0"⟩, ""⟩ {}
    s₀.held breaksAtFirst = [event 1, event 2] ∧
      (s₀.run breaksAtFirst).map (fun s ↦ (s.transport.reception.phase, s.waiting, s.offers)) =
        some (.normal, none, [event 1]) ∧
      s₀.held answersLate = [event 1, event 2] ∧
      (s₀.run answersLate).map (fun s ↦ (s.transport.reception.phase, s.waiting, s.offers)) =
        some (.normal, none, [event 1]) := by
  decide +kernel

/-- **What a live message can go before.**  In every run of a transport that messages are kept for,
in which the listener does not break down, what was held back is what the worker has taken, all of
which was offered but for copies, followed by what is in the queue.  Unless the worker was late, all
that it takes is offered before anything that comes in directly; and it has taken everything by
then. -/
theorem direct_after_held {settings : Settings} {origin : Origin} {outside : Outside}
    {moves : List Move} {s : Session} (hpersistent : settings.persistent = true)
    (hrun : (start settings origin outside).run moves = some s)
    (hwhole : .judge .broken ∉ moves) :
    let s₀ := start settings origin outside
    let l := s₀.ledger {} moves
    s₀.held moves = l.taken ++ l.late ++ s.transport.reception.queue ∧
      (∀ m ∈ l.taken ++ l.late, m.id ∈ s.offers.map Envelope.id) ∧
      (.late ∉ moves →
        s.offers = l.replayed ++ firstCopies (l.replayed.map Envelope.id) l.taken ++
            s₀.direct moves ∧
          (s₀.direct moves ≠ [] → l.taken = s₀.held moves)) := by
  intro s₀ l
  obtain ⟨haccounts, hholds⟩ := holds_run hpersistent hrun hwhole
  refine ⟨hholds.kept, fun m hm ↦ haccounts.mem_ids_offers hm, fun hintime ↦ ?_⟩
  have hlate : l.late = [] := haccounts.late_eq_nil hintime
  have hoffers : s.offers = l.offers ++ s₀.direct moves := hholds.order hintime
  refine ⟨?_, fun hdirect ↦ ?_⟩
  · rw [hoffers, haccounts.offers, hlate, firstCopies, List.append_nil]
  · obtain ⟨hnormal, hnobody⟩ := hholds.free hdirect
    have hqueue : s.gist.queue = [] := (hholds.ended (hholds.settled hintime hnormal hnobody)).1
    rw [hholds.kept, hlate, hqueue, List.append_nil, List.append_nil]

/-- The transport stops while the listener is at the first message, and the worker ends in time. -/
def stopsInTime : List Move :=
  queued ++ [.stop, .judge .accepted, .turn, .judge .accepted, .turn, .joined, .receive (event 3)]

/-- A live message that comes in after the stop is offered after what was held back. -/
theorem direct_stopsInTime :
    ∃ s, (start { persistent := true } ⟨⟨"Abc.Self.0"⟩, ""⟩ {}).run stopsInTime = some s ∧
      (start { persistent := true } ⟨⟨"Abc.Self.0"⟩, ""⟩ {}).direct stopsInTime = [event 3] ∧
      s.offers = [event 1, event 2, event 3] := by
  have hdone :
      let s₀ := start { persistent := true } ⟨⟨"Abc.Self.0"⟩, ""⟩ {}
      (s₀.run stopsInTime).isSome ∧ (s₀.ledger {} stopsInTime).replayed = [] ∧
        s₀.held stopsInTime = [event 1, event 2] ∧ s₀.direct stopsInTime = [event 3] := by
    decide +kernel
  obtain ⟨hsome, hreplayed, hheld, hdirect⟩ := hdone
  obtain ⟨s, hrun⟩ := Option.isSome_iff_exists.mp hsome
  obtain ⟨-, -, hintime⟩ := direct_after_held rfl hrun (by simp [stopsInTime, queued, asks])
  obtain ⟨hoffers, htaken⟩ := hintime (by simp [stopsInTime, queued, asks])
  refine ⟨s, hrun, hdirect, ?_⟩
  rw [hoffers, htaken (by simp [hdirect]), hreplayed, hheld, hdirect]
  rfl

/-- A live message comes in after the wait for the worker was given up, be it at the end of the
safety phase or at the stop; the listener answers only then. -/
def comesInBefore (wait : List Move) : List Move :=
  queued ++ wait ++ [.late, .receive (event 3), .judge .accepted, .turn]

/-- **A live message may go before one that was held back.** -/
theorem offers_comesInBefore :
    let s₀ := start { persistent := true } ⟨⟨"Abc.Self.0"⟩, ""⟩ {}
    let ended := comesInBefore [.receive (fromService (SafetyPhaseEnded.mk (.fresh 0)))]
    let stopped := comesInBefore [.stop]
    (s₀.held ended = [event 1, event 2] ∧ s₀.direct ended = [event 3] ∧
        (s₀.run ended).map Session.offers = some [event 1, event 3, event 2]) ∧
      s₀.held stopped = [event 1, event 2] ∧ s₀.direct stopped = [event 3] ∧
        (s₀.run stopped).map Session.offers = some [event 1, event 3, event 2] := by
  decide +kernel

end Session

end ServiceBus.Durable
