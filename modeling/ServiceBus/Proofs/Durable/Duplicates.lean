import ServiceBus.Proofs.Durable.Cutover

/-!
# Copies of a message

Before the phase is normal a message may come in more than once: it is replayed, it comes in live,
and either of these perhaps several times.  The listener is meant to be offered one of the copies.

What becomes of the copies is written down in a `Ledger`.  A message that is replayed in the replay
phase is offered at once.  All others go through the queue, and the worker that takes them out
passes over those whose id was offered before.  But what was offered is forgotten when the safety
phase ends, and a worker that is late by then still has messages to take.

`count_offers_le_one_iff` says what the listener is offered in every run, and when these are two
copies of one message: it was replayed twice in the replay phase, or a late worker took a copy of
what had been offered before.
-/

set_option autoImplicit false

namespace ServiceBus.Durable

/-- What has become of the messages that came in before the phase was normal. -/
structure Ledger where
  /-- What was replayed in the replay phase, oldest first. -/
  replayed : List Envelope := []
  /-- What the worker took out of the queue while it was known what had been offered. -/
  taken : List Envelope := []
  /-- What the worker took out of the queue after that. -/
  late : List Envelope := []
  /-- The worker was late, and what had been offered was forgotten. -/
  forgotten : Bool := false
  /-- What the listener was offered of all these. -/
  offers : List Envelope := []

/-! ## Receiving without offering -/

namespace Reception

variable {r r' : Reception}

/-- The receiving side goes on without offering or forgetting anything: phases follow on each other,
and a worker that has ended does not come back, but for the one that starts after the replay phase.
-/
structure Proceeds (r r' : Reception) : Prop where
  offered : r'.offered = r.offered
  direct : r'.phase = .direct → r.phase = .direct
  normal : r.phase = .normal → r'.phase = .normal
  replay : ∀ session, r'.phase = .replay session →
    (∃ session, r.phase = .replay session) ∧ (r.worker = .absent → r'.worker = .absent)
  worker : r'.workerEnded = false → (∃ session, r.phase = .replay session) ∨ r.workerEnded = false

theorem Proceeds.of_same (hoffered : r'.offered = r.offered) (hphase : r'.phase = r.phase)
    (habsent : r.worker = .absent → r'.worker = .absent)
    (hended : r'.workerEnded = false → r.workerEnded = false) : r.Proceeds r' where
  offered := hoffered
  direct hdirect := hphase ▸ hdirect
  normal hnormal := hphase.trans hnormal
  replay session hsession := ⟨⟨session, hphase ▸ hsession⟩, habsent⟩
  worker hworker := Or.inr (hended hworker)

theorem Proceeds.refl (r : Reception) : r.Proceeds r :=
  .of_same rfl rfl (fun h ↦ h) fun h ↦ h

theorem Proceeds.trans {r'' : Reception} (h : r.Proceeds r') (h' : r'.Proceeds r'') :
    r.Proceeds r'' where
  offered := h'.offered.trans h.offered
  direct hdirect := h.direct (h'.direct hdirect)
  normal hnormal := h'.normal (h.normal hnormal)
  replay session hsession := by
    obtain ⟨⟨session', hsession'⟩, hworker'⟩ := h'.replay session hsession
    obtain ⟨hbefore, hworker⟩ := h.replay session' hsession'
    exact ⟨hbefore, fun habsent ↦ hworker' (hworker habsent)⟩
  worker hworker := by
    obtain ⟨session, hsession⟩ | hworker' := h'.worker hworker
    · exact Or.inl (h.replay session hsession).1
    · exact h.worker hworker'

theorem proceeds_hold (r : Reception) (m : Envelope) : r.Proceeds (r.hold m).1 := by
  rw [hold]
  split
  · exact .refl r
  · exact .of_same rfl rfl (fun h ↦ h) fun h ↦ h

theorem proceeds_open? {fresh session : Uuid} (h : r.open? fresh = some (session, r')) :
    r.Proceeds r' := by
  unfold open? at h
  split at h
  · obtain rfl := (Prod.mk.inj (Option.some.inj h)).2
    exact .refl r
  · next hphase =>
    obtain rfl := (Prod.mk.inj (Option.some.inj h)).2
    refine ⟨rfl, nofun, fun hnormal ↦ ?_, fun _ _ ↦ ?_, Or.inr⟩
    · cases hphase.symm.trans hnormal
    · exact ⟨⟨none, hphase⟩, fun hworker ↦ hworker⟩
  · cases h

theorem proceeds_endReplayPhase (r : Reception) (session : Uuid) :
    r.Proceeds (r.endReplayPhase session).1 := by
  rw [endReplayPhase]
  cases hphase : r.phase with
  | replay current =>
    by_cases hcurrent : current = some session
    · simp only [if_pos hcurrent]
      refine ⟨rfl, fun hdirect ↦ ?_, fun hnormal ↦ ?_, fun _ hsession ↦ ?_,
        fun _ ↦ Or.inl ⟨current, hphase⟩⟩
      · cases hdirect
      · cases hphase.symm.trans hnormal
      · cases hsession
    · simp only [if_neg hcurrent]
      exact .refl r
  | _ => exact .refl r

theorem proceeds_normal (r : Reception) : r.Proceeds { r with phase := .normal } :=
  ⟨rfl, nofun, fun _ ↦ rfl, nofun, Or.inr⟩

theorem proceeds_stop (r : Reception) : r.Proceeds r.stop.1 := by
  rw [stop]
  split
  · exact proceeds_normal r
  · exact .refl r

theorem proceeds_judge (r : Reception) (verdict : Verdict) : r.Proceeds (r.judge verdict).1 := by
  rw [judge]
  split
  · next m hworker =>
    have habsent : r.worker = .absent → ∀ r' : Reception, r'.worker = .absent :=
      fun h ↦ by cases hworker.symm.trans h
    have hended : r.workerEnded = false := by rw [workerEnded, hworker]
    cases verdict with
    | accepted => exact .of_same rfl rfl (fun h ↦ habsent h _) fun _ ↦ hended
    | refused failure => exact .of_same rfl rfl (fun h ↦ habsent h _) fun _ ↦ hended
    | broken => exact .of_same rfl rfl (fun h ↦ habsent h _) fun _ ↦ hended
  · exact .refl r

/-- The worker that takes no message only comes to its end. -/
theorem proceeds_turn (h : r.worker = .idle → r.queue = []) :
    r.Proceeds r.turn.1 ∧ r.turn.2 = .rest := by
  by_cases hidle : r.worker = .idle
  · have hended : r.workerEnded = false := by rw [workerEnded, hidle]
    have habsent : r.worker = .absent → Worker.ended = .absent :=
      fun h ↦ by cases hidle.symm.trans h
    rw [turn_of_nil hidle (h hidle)]
    split
    · exact ⟨.of_same rfl rfl habsent fun _ ↦ hended, rfl⟩
    · exact ⟨.refl r, rfl⟩
  · rw [turn_of_not_idle hidle]
    exact ⟨.refl r, rfl⟩

/-- A live message is held back while a replay is going on, and offered otherwise. -/
theorem receiveLive_eq_or (r : Reception) (m : Envelope) :
    (∃ notices, r.receiveLive m = ((r.hold m).1, notices, .nothing)) ∨
      (r.phase = .direct ∨ r.phase = .normal) ∧ r.receiveLive m = (r, [], .offer m) := by
  rw [receiveLive]
  split
  · exact Or.inl ⟨_, rfl⟩
  · exact Or.inl ⟨_, rfl⟩
  · next hphase => exact Or.inr ⟨Or.inl hphase, rfl⟩
  · next hphase => exact Or.inr ⟨Or.inr hphase, rfl⟩

/-- A replayed message that does not come in the replay phase of its replay is not offered at once.
-/
theorem receiveReplayed_of_not_replay {body : Replayed} (h : r.phase ≠ .replay (some body.replay)) :
    ∃ r' notices, r.receiveReplayed body = (r', notices, .nothing) ∧ r.Proceeds r' := by
  rw [receiveReplayed]
  split
  · next hsession =>
    cases hphase : r.phase with
    | safety session =>
      have hbegun : r.Proceeds { r with replayBegun := true } :=
        .of_same rfl rfl (fun h ↦ h) fun h ↦ h
      exact ⟨_, _, rfl, hphase ▸ hbegun.trans (proceeds_hold _ _)⟩
    | replay session =>
      rw [hphase] at hsession
      exact absurd (hphase.trans (congrArg Phase.replay hsession)) h
    | direct => simp [hphase, Phase.session] at hsession
    | normal => simp [hphase, Phase.session] at hsession
  · exact ⟨r, _, rfl, .refl r⟩

end Reception

theorem Transport.proceeds_requestReplay (t : Transport) (v : Directory.View) (o : Outside) :
    t.reception.Proceeds (t.requestReplay v o).1.reception ∧
      (t.requestReplay v o).1.hasListener = t.hasListener := by
  rw [requestReplay_fst]
  cases hopen : t.reception.open? o.fresh.1 with
  | none => exact ⟨.refl _, rfl⟩
  | some opened => exact ⟨Reception.proceeds_open? hopen, rfl⟩

namespace Session

/-! ## The ledger of a run -/

/-- The message that a move replays in the replay phase. -/
def replayedBy? (s : Session) : Move → Option Envelope
  | .receive m =>
    match m.decode Replayed with
    | .ok body =>
      if s.transport.reception.phase = .replay (some body.replay) then
        some { body.message with replayed := true }
      else none
    | .error _ => none
  | _ => none

/-- The message that the worker takes out of the queue. -/
def takenBy? (s : Session) : Move → Option Envelope
  | .turn =>
    match s.transport.reception.worker with
    | .idle => s.transport.reception.queue.head?
    | _ => none
  | _ => none

/-- The worker is late at the end of the safety phase. -/
def isLate (s : Session) : Move → Bool
  | .late =>
    match s.waiting with
    | some (.phaseEnd _) => true
    | _ => false
  | _ => false

/-- The move brings in no message of the normal phase. -/
def isEarly (s : Session) : Move → Bool
  | .receive _ => s.transport.reception.phase ≠ .normal
  | _ => true

/-- The ledger after a move that leads to the given session. -/
def enter (s s' : Session) (l : Ledger) (move : Move) : Ledger where
  replayed := l.replayed ++ (s.replayedBy? move).toList
  taken := if l.forgotten then l.taken else l.taken ++ (s.takenBy? move).toList
  late := if l.forgotten then l.late ++ (s.takenBy? move).toList else l.late
  forgotten := l.forgotten || s.isLate move
  offers := l.offers ++ if s.isEarly move then s'.offers.drop s.offers.length else []

/-- The ledger after some moves. -/
def ledger : Session → Ledger → List Move → Ledger
  | _, l, [] => l
  | s, l, move :: moves =>
    match s.step move with
    | some s' => s'.ledger (s.enter s' l move) moves
    | none => l

theorem enter_eq_self {s s' : Session} {move : Move} (hreplayed : s.replayedBy? move = none)
    (htaken : s.takenBy? move = none) (hlate : s.isLate move = false)
    (hoffers : s.isEarly move = true → s'.offers = s.offers) (l : Ledger) :
    s.enter s' l move = l := by
  have hnew : (if s.isEarly move then s'.offers.drop s.offers.length else []) = [] := by
    split
    · next hearly => rw [hoffers hearly, List.drop_length]
    · rfl
  rw [enter, hreplayed, htaken, hlate, hnew]
  simp

/-! ## The ledger is right -/

/-- The ledger fits the session. -/
structure Accounts (l : Ledger) (s : Session) : Prop where
  /-- There is a listener. -/
  listener : s.transport.hasListener = true
  /-- Messages are kept for the peer. -/
  persistent : s.transport.reception.phase ≠ .direct
  /-- In the replay phase there is no worker yet. -/
  replaying : ∀ session, s.transport.reception.phase = .replay session →
    s.transport.reception.worker = .absent ∧ l.taken = []
  /-- Whoever waits at the end of the safety phase has made the phase normal. -/
  waiting : ∀ session, s.waiting = some (.phaseEnd session) →
    s.transport.reception.phase = .normal ∧ l.forgotten = false
  /-- What was offered is forgotten in the normal phase only. -/
  forgotten : l.forgotten = true → s.transport.reception.phase = .normal
  /-- Nothing is taken late before. -/
  late : l.forgotten = false → l.late = []
  /-- What is known to have been offered, as long as anybody looks at it. -/
  known : (∃ session, s.transport.reception.phase = .replay session) ∨
      s.transport.reception.workerEnded = false →
    ∀ id, id ∈ s.transport.reception.offered ↔
      id ∈ (if l.forgotten then l.late else l.replayed ++ l.taken).map Envelope.id
  /-- What the listener was offered. -/
  offers : l.offers = l.replayed ++ firstCopies (l.replayed.map Envelope.id) l.taken ++
    firstCopies [] l.late
  /-- The listener was offered this among other messages. -/
  sublist : l.offers.Sublist s.offers

variable {l : Ledger} {s s' : Session}

theorem accounts_start {settings : Settings} (h : settings.persistent = true) (origin : Origin)
    (outside : Outside) : (start settings origin outside).Accounts {} := by
  have hphase : (start settings origin outside).transport.reception.phase = .replay none := by
    simp [start, Transport.ofSettings, Reception.start, h]
  constructor
  · rfl
  · simp [hphase]
  · exact fun _ _ ↦ ⟨rfl, rfl⟩
  · exact fun _ hwaiting ↦ by cases hwaiting
  · exact fun hforgotten ↦ by cases hforgotten
  · exact fun _ ↦ rfl
  · exact fun _ _ ↦ Iff.rfl
  · rfl
  · exact List.Sublist.refl []

/-- A move by which nothing is offered early, and nothing is forgotten. -/
structure Quiet (s s' : Session) : Prop where
  reception : s.transport.reception.Proceeds s'.transport.reception
  listener : s'.transport.hasListener = s.transport.hasListener
  offers : s.offers <+: s'.offers
  waiting : ∀ session, s'.waiting = some (.phaseEnd session) →
    s.waiting = some (.phaseEnd session) ∨
      s.transport.reception.phase ≠ .normal ∧ s'.transport.reception.phase = .normal

theorem Accounts.quiet (h : s.Accounts l) (hquiet : s.Quiet s') : s'.Accounts l := by
  have hreception := hquiet.reception
  constructor
  · exact hquiet.listener.trans h.listener
  · exact fun hdirect ↦ h.persistent (hreception.direct hdirect)
  · intro session hsession
    obtain ⟨⟨session', hsession'⟩, hworker⟩ := hreception.replay session hsession
    obtain ⟨habsent, htaken⟩ := h.replaying session' hsession'
    exact ⟨hworker habsent, htaken⟩
  · intro session hsession
    obtain hbefore | ⟨hbefore, hafter⟩ := hquiet.waiting session hsession
    · obtain ⟨hnormal, hforgotten⟩ := h.waiting session hbefore
      exact ⟨hreception.normal hnormal, hforgotten⟩
    · exact ⟨hafter, Bool.eq_false_iff.mpr fun hforgotten ↦ hbefore (h.forgotten hforgotten)⟩
  · exact fun hforgotten ↦ hreception.normal (h.forgotten hforgotten)
  · exact h.late
  · rw [hreception.offered]
    rintro (⟨session, hsession⟩ | hworker)
    · exact h.known (Or.inl (hreception.replay session hsession).1)
    · exact h.known (hreception.worker hworker)
  · exact h.offers
  · exact h.sublist.trans hquiet.offers.sublist

/-! ### What offers nothing -/

theorem quiet_update {r : Reception} (h : s.transport.reception.Proceeds r)
    (notices : List Notice) : s.Quiet (s.update r notices) :=
  ⟨h, rfl, List.prefix_rfl, fun _ ↦ Or.inl⟩

theorem quiet_request {v : Directory.View} (h : s.step (.request v) = some s') : s.Quiet s' := by
  obtain ⟨htransport, hwaiting, -, hoffers⟩ := step_request h
  have hproceeds := s.transport.proceeds_requestReplay v s.outside
  rw [← htransport] at hproceeds
  exact ⟨hproceeds.1, hproceeds.2, hoffers ▸ List.prefix_rfl, by simp [hwaiting]⟩

/-- The end of the safety phase makes the phase normal, and has the worker waited for. -/
theorem quiet_endSafetyPhase (session : Uuid) :
    s.Quiet (s.follow (s.transport.react (s.transport.reception.endSafetyPhase session)
        s.outside)) ∧
      (s.follow (s.transport.react (s.transport.reception.endSafetyPhase session)
        s.outside)).offers = s.offers := by
  rw [Reception.endSafetyPhase]
  split
  · next current hphase =>
    split
    · rw [follow_await]
      refine ⟨⟨Reception.proceeds_normal _, rfl, List.prefix_rfl, fun _ _ ↦ Or.inr ?_⟩, rfl⟩
      exact ⟨by simp [hphase], rfl⟩
    · rw [follow_nothing]
      exact ⟨quiet_update (.refl _) _, rfl⟩
  · rw [follow_nothing]
    exact ⟨quiet_update (.refl _) _, rfl⟩

theorem replayedBy?_of_unread {m : Envelope} (h : ∀ body, m.decode Replayed ≠ .ok body) :
    s.replayedBy? (.receive m) = none := by
  cases hdecode : m.decode Replayed with
  | ok body => exact absurd hdecode (h body)
  | error failure => simp [replayedBy?, hdecode]

/-- A move that is quiet, and enters nothing, keeps the ledger right. -/
theorem Accounts.keep {move : Move} (h : s.Accounts l) (hquiet : s.Quiet s')
    (hreplayed : s.replayedBy? move = none) (htaken : s.takenBy? move = none)
    (hlate : s.isLate move = false) (hoffers : s.isEarly move = true → s'.offers = s.offers) :
    s'.Accounts (s.enter s' l move) := by
  rw [enter_eq_self hreplayed htaken hlate hoffers]
  exact h.quiet hquiet

theorem Accounts.keep_receive {m : Envelope} (h : s.Accounts l) (hquiet : s.Quiet s')
    (hreplayed : s.replayedBy? (.receive m) = none) (hoffers : s'.offers = s.offers) :
    s'.Accounts (s.enter s' l (.receive m)) :=
  h.keep hquiet hreplayed rfl rfl fun _ ↦ hoffers

/-- A live message is held back, or offered without being entered: the phase is normal then. -/
theorem Accounts.receiveLive {m : Envelope} (h : s.Accounts l) (hm : isLive m) :
    (s.follow (s.transport.react (s.transport.reception.receiveLive m) s.outside)).Accounts
      (s.enter (s.follow (s.transport.react (s.transport.reception.receiveLive m) s.outside)) l
        (.receive m)) := by
  have hunread : s.replayedBy? (.receive m) = none := by
    refine replayedBy?_of_unread fun body hbody ↦ ?_
    simp [isLive_eq_false_of_decode_replayed hbody] at hm
  obtain ⟨notices, hhold⟩ | ⟨hphase, hoffer⟩ := s.transport.reception.receiveLive_eq_or m
  · rw [hhold, follow_nothing]
    exact h.keep_receive (quiet_update (Reception.proceeds_hold _ m) notices) hunread rfl
  · have hnormal : s.transport.reception.phase = .normal :=
      hphase.resolve_left h.persistent
    rw [hoffer, follow_offer h.listener, update_self]
    refine h.keep ⟨.refl _, rfl, List.prefix_append _ _, fun _ ↦ Or.inl⟩ hunread rfl rfl ?_
    simp [isEarly, hnormal]

/-- A message that is replayed in the replay phase is offered at once. -/
theorem Accounts.receiveEarly {m : Envelope} {body : Replayed} (h : s.Accounts l)
    (hbody : m.decode Replayed = .ok body)
    (hphase : s.transport.reception.phase = .replay (some body.replay)) :
    (s.follow (s.transport.react (s.transport.reception.receiveReplayed body) s.outside)).Accounts
      (s.enter (s.follow (s.transport.react (s.transport.reception.receiveReplayed body)
        s.outside)) l (.receive m)) := by
  obtain ⟨habsent, htaken⟩ := h.replaying _ hphase
  have hforgotten : l.forgotten = false := Bool.eq_false_iff.mpr fun hforgotten ↦ by
    cases hphase.symm.trans (h.forgotten hforgotten)
  have hlate := h.late hforgotten
  have hknown := h.known (Or.inl ⟨_, hphase⟩)
  have hoffers := h.offers
  rw [htaken, hlate] at hoffers
  simp only [hforgotten, htaken, Bool.false_eq_true, if_false, List.append_nil] at hknown
  rw [Reception.receiveReplayed_of_replay hphase, follow_offer h.listener]
  have henter : ∀ s' : Session, s'.offers = s.offers ++ [{ body.message with replayed := true }] →
      s.enter s' l (.receive m) =
        { l with
          replayed := l.replayed ++ [{ body.message with replayed := true }]
          offers := l.offers ++ [{ body.message with replayed := true }] } := by
    intro s' hs'
    simp [enter, replayedBy?, takenBy?, isLate, isEarly, hbody, hphase, hs']
  rw [henter _ rfl]
  constructor
  · exact h.listener
  · simp [update, hphase]
  · exact fun _ _ ↦ ⟨habsent, htaken⟩
  · exact h.waiting
  · simp [hforgotten]
  · exact fun _ ↦ hlate
  · rintro - id
    simp only [hforgotten, htaken, Bool.false_eq_true, if_false, List.append_nil, List.map_append,
      List.mem_append, List.map_singleton, List.mem_singleton, ← hknown, update]
    split
    · next hthere => exact ⟨Or.inl, fun hid ↦ hid.elim (fun hid ↦ hid) fun hid ↦ hid ▸ hthere⟩
    · rw [List.mem_cons, or_comm]
  · simp [htaken, hlate, hoffers, firstCopies]
  · exact h.sublist.append (List.Sublist.refl _)

theorem Accounts.receive {m : Envelope} (h : s.Accounts l) (hstep : s.step (.receive m) = some s') :
    s'.Accounts (s.enter s' l (.receive m)) := by
  cases received_of_step hstep with
  | aside unread reception listener waiting offers =>
    exact h.keep_receive ⟨reception ▸ .refl _, listener, offers ▸ List.prefix_rfl,
      fun _ hsession ↦ Or.inl (waiting ▸ hsession)⟩ (replayedBy?_of_unread unread) offers
  | live free kind => exact h.receiveLive kind
  | @replayed body free kind =>
    by_cases hphase : s.transport.reception.phase = .replay (some body.replay)
    · exact h.receiveEarly kind hphase
    · obtain ⟨r, notices, hreceive, hproceeds⟩ := Reception.receiveReplayed_of_not_replay hphase
      rw [hreceive, follow_nothing]
      exact h.keep_receive (quiet_update hproceeds notices)
        (by simp [replayedBy?, kind, hphase]) rfl
  | @replayPhaseEnded body free kind =>
    have hunread := replayedBy?_of_unread (s := s) (decode_replayed_ne_of_decode kind (by decide))
    exact h.keep_receive (quiet_update (Reception.proceeds_endReplayPhase _ _) _) hunread rfl
  | @safetyPhaseEnded body free kind =>
    have hunread := replayedBy?_of_unread (s := s) (decode_replayed_ne_of_decode kind (by decide))
    have hquiet := quiet_endSafetyPhase (s := s) body.replay
    exact h.keep_receive hquiet.1 hunread hquiet.2

/-- The worker that takes a message offers it if its id is not known, and knows it then. -/
theorem work_of_cons {m : Envelope} {rest : List Envelope}
    (hlistener : s.transport.hasListener = true)
    (hidle : s.transport.reception.worker = .idle)
    (hqueue : s.transport.reception.queue = m :: rest) :
    ∃ r notices, s.work = { s.update r notices with
        offers := s.offers ++ if m.id ∈ s.transport.reception.offered then [] else [m] } ∧
      r.phase = s.transport.reception.phase ∧
      ∀ id, id ∈ r.offered ↔ id ∈ s.transport.reception.offered ∨ id = m.id := by
  by_cases hseen : m.id ∈ s.transport.reception.offered
  · refine ⟨{ s.transport.reception with queue := rest }, [.duplicateSkipped m.id], ?_, rfl,
      fun id ↦ ⟨Or.inl, ?_⟩⟩
    · rw [work_of_skip (Reception.turn_of_mem hidle hqueue hseen), if_pos hseen, List.append_nil]
      rfl
    · rintro (hid | rfl)
      · exact hid
      · exact hseen
  · refine ⟨{ s.transport.reception with
        queue := rest, offered := m.id :: s.transport.reception.offered, worker := .offering m },
      [], ?_, rfl, fun id ↦ ?_⟩
    · rw [work_of_offer hlistener (Reception.turn_of_not_mem hidle hqueue hseen), if_neg hseen]
    · rw [List.mem_cons, or_comm]

/-- The worker takes the next message out of the queue: the listener is offered it, unless its id is
known. -/
theorem Accounts.take {m : Envelope} {rest : List Envelope} (h : s.Accounts l)
    (hidle : s.transport.reception.worker = .idle)
    (hqueue : s.transport.reception.queue = m :: rest) :
    s.work.Accounts (s.enter s.work l .turn) := by
  have hknown := h.known (Or.inr (by rw [Reception.workerEnded, hidle]))
  have hnotReplay : ∀ session, s.transport.reception.phase ≠ .replay session :=
    fun session hsession ↦ by cases hidle.symm.trans (h.replaying session hsession).1
  obtain ⟨r, notices, hwork, hphase, hoffered⟩ := work_of_cons h.listener hidle hqueue
  have henter : s.enter s.work l .turn =
      { l with
        taken := if l.forgotten then l.taken else l.taken ++ [m]
        late := if l.forgotten then l.late ++ [m] else l.late
        offers := l.offers ++ if m.id ∈ s.transport.reception.offered then [] else [m] } := by
    simp [enter, replayedBy?, takenBy?, isLate, isEarly, hidle, hqueue, hwork]
  rw [henter, hwork]
  constructor
  · exact h.listener
  · exact hphase ▸ h.persistent
  · exact fun session hsession ↦ absurd (hphase ▸ hsession) (hnotReplay session)
  · exact hphase ▸ h.waiting
  · exact hphase ▸ h.forgotten
  · exact fun hforgotten ↦ (if_neg (Bool.eq_false_iff.mp hforgotten)).trans (h.late hforgotten)
  · rintro - id
    show id ∈ r.offered ↔ _
    rw [hoffered, hknown]
    cases hforgotten : l.forgotten <;> simp [or_assoc]
  · cases hforgotten : l.forgotten with
    | false =>
      simp [hforgotten] at hknown
      simp [h.offers, h.late hforgotten, firstCopies, firstCopies_concat, hknown]
    | true =>
      simp [hforgotten] at hknown
      simp [h.offers, firstCopies_concat, hknown]
  · exact h.sublist.append (List.Sublist.refl _)

theorem Accounts.turn (h : s.Accounts l) (hstep : s.step .turn = some s') :
    s'.Accounts (s.enter s' l .turn) := by
  obtain rfl := Option.some.inj hstep
  by_cases hmore : s.transport.reception.worker = .idle → s.transport.reception.queue = []
  · obtain ⟨hproceeds, hrest⟩ := Reception.proceeds_turn hmore
    have htaken : s.takenBy? .turn = none := by
      rw [takenBy?]
      split
      · next hidle => rw [hmore hidle, List.head?_nil]
      · rfl
    rw [work_of_rest (Prod.ext rfl hrest)]
    exact h.keep (quiet_update hproceeds []) rfl htaken rfl fun _ ↦ rfl
  · obtain ⟨hidle, hqueue⟩ := Classical.not_imp.mp hmore
    obtain ⟨m, rest, hqueue⟩ := List.exists_cons_of_ne_nil hqueue
    exact h.take hidle hqueue

theorem Accounts.judge {verdict : Verdict} (h : s.Accounts l)
    (hstep : s.step (.judge verdict) = some s') :
    s'.Accounts (s.enter s' l (.judge verdict)) := by
  rw [step] at hstep
  split at hstep
  · obtain rfl := Option.some.inj hstep
    exact h.keep (quiet_update (Reception.proceeds_judge _ verdict) _) rfl rfl rfl fun _ ↦ rfl
  · cases hstep

theorem Accounts.stop (h : s.Accounts l) (hstep : s.step .stop = some s') :
    s'.Accounts (s.enter s' l .stop) := by
  rw [step] at hstep
  split at hstep
  · cases hstep
  · obtain rfl := Option.some.inj hstep
    refine h.keep ⟨Reception.proceeds_stop _, rfl, List.prefix_rfl, fun session hsession ↦ ?_⟩
      rfl rfl rfl fun _ ↦ rfl
    dsimp only at hsession
    split at hsession
    · cases hsession
    · cases hsession

/-- Whoever waits goes on.  What was offered is forgotten at the end of a safety phase only. -/
theorem wake_cases (h : s.wake = some s') :
    s'.waiting = none ∧ s'.offers = s.offers ∧
      s'.transport.hasListener = s.transport.hasListener ∧
      ((s.waiting = some .stop ∧ s'.transport.reception = s.transport.reception) ∨
        ∃ session, s.waiting = some (.phaseEnd session) ∧
          s'.transport.reception = { s.transport.reception with offered := [] }) := by
  obtain ⟨w, hw, rfl⟩ := Option.map_eq_some_iff.mp h
  cases w with
  | stop => exact ⟨rfl, rfl, rfl, Or.inl ⟨hw, rfl⟩⟩
  | phaseEnd session => exact ⟨rfl, rfl, rfl, Or.inr ⟨session, hw, rfl⟩⟩

/-- What was offered is forgotten: the ledger is right if nobody looks at it, or if it says so. -/
theorem Accounts.forget {l' : Ledger} {session : Uuid} (h : s.Accounts l)
    (hwaiting : s.waiting = some (.phaseEnd session)) (hwake : s.wake = some s')
    (hl' : l' = { l with forgotten := !s.transport.reception.workerEnded }) : s'.Accounts l' := by
  obtain ⟨hnobody, hoffers, hlistener, ⟨hstop, -⟩ | ⟨session', -, hreception⟩⟩ := wake_cases hwake
  · cases hwaiting.symm.trans hstop
  · obtain ⟨hnormal, hforgotten⟩ := h.waiting session hwaiting
    have hphase : s'.transport.reception.phase = .normal := by rw [hreception]; exact hnormal
    have hended : s'.transport.reception.workerEnded = s.transport.reception.workerEnded := by
      rw [hreception]
      rfl
    subst hl'
    constructor
    · exact hlistener.trans h.listener
    · simp [hphase]
    · simp [hphase]
    · simp [hnobody]
    · exact fun _ ↦ hphase
    · exact fun _ ↦ h.late hforgotten
    · rintro (⟨session', hsession'⟩ | hworker) id
      · cases hphase.symm.trans hsession'
      · rw [hended] at hworker
        simp [hreception, hworker, h.late hforgotten]
    · exact h.offers
    · exact hoffers ▸ h.sublist

theorem Accounts.wake {move : Move} (h : s.Accounts l) (hwake : s.wake = some s')
    (hreplayed : s.replayedBy? move = none) (htaken : s.takenBy? move = none)
    (hlate : ∀ session, s.waiting = some (.phaseEnd session) →
      s.isLate move = !s.transport.reception.workerEnded)
    (hstop : s.waiting = some .stop → s.isLate move = false) :
    s'.Accounts (s.enter s' l move) := by
  obtain ⟨hnobody, hoffers, hlistener, ⟨hwaiting, hreception⟩ | ⟨session, hwaiting, -⟩⟩ :=
    wake_cases hwake
  · exact h.keep ⟨hreception ▸ .refl _, hlistener, hoffers ▸ List.prefix_rfl, by simp [hnobody]⟩
      hreplayed htaken (hstop hwaiting) fun _ ↦ hoffers
  · refine h.forget hwaiting hwake ?_
    simp [enter, hreplayed, htaken, hoffers, hlate session hwaiting, (h.waiting session hwaiting).2]

theorem Accounts.step {move : Move} (h : s.Accounts l) (hstep : s.step move = some s') :
    s'.Accounts (s.enter s' l move) := by
  cases move with
  | request v =>
    exact h.keep (quiet_request hstep) rfl rfl rfl fun _ ↦ (step_request hstep).2.2.2
  | receive m => exact h.receive hstep
  | turn => exact h.turn hstep
  | judge verdict => exact h.judge hstep
  | joined =>
    rw [Session.step] at hstep
    split at hstep
    · next hended =>
      exact h.wake hstep rfl rfl (fun _ _ ↦ by simp [isLate, hended]) fun _ ↦ rfl
    · cases hstep
  | late =>
    rw [Session.step] at hstep
    split at hstep
    · cases hstep
    · next hended =>
      exact h.wake hstep rfl rfl (fun _ hwaiting ↦ by simp [isLate, hended, hwaiting])
        fun hwaiting ↦ by simp [isLate, hwaiting]
  | stop => exact h.stop hstep

theorem Accounts.run {moves : List Move} (h : s.Accounts l) (hrun : s.run moves = some s') :
    s'.Accounts (s.ledger l moves) := by
  induction moves generalizing s l with
  | nil =>
    obtain rfl := Option.some.inj hrun
    exact h
  | cons move moves ih =>
    obtain ⟨s₁, hstep, hrest⟩ := run_cons_eq_some hrun
    rw [ledger, hstep]
    exact ih (h.step hstep) hrest

/-- Nothing is taken late unless the worker has been waited for long enough. -/
theorem late_mem_of_forgotten {moves : List Move}
    (h : (s.ledger l moves).forgotten = true) : l.forgotten = true ∨ .late ∈ moves := by
  induction moves generalizing s l with
  | nil => exact Or.inl h
  | cons move moves ih =>
    rw [ledger] at h
    split at h
    · obtain hforgotten | hmem := ih h
      · rw [enter, Bool.or_eq_true] at hforgotten
        obtain hforgotten | hlate := hforgotten
        · exact Or.inl hforgotten
        · cases move with
          | late => exact Or.inr (by simp)
          | _ => cases hlate
      · exact Or.inr (by simp [hmem])
    · exact Or.inl h

/-! ## Every run -/

/-- What is offered twice: what is replayed twice, and what is both given and taken late. -/
theorem count_ids_copies_le_one_iff (replayed taken late : List Envelope) (id : Uuid) :
    ((replayed ++ firstCopies (replayed.map Envelope.id) taken ++ firstCopies [] late).map
        Envelope.id).count id ≤ 1 ↔
      (replayed.map Envelope.id).count id ≤ 1 ∧
        (id ∈ (replayed ++ taken).map Envelope.id → id ∉ late.map Envelope.id) := by
  rw [List.map_append, List.map_append, List.count_append, List.count_append,
    (nodup_ids_firstCopies _ taken).count, (nodup_ids_firstCopies [] late).count,
    List.map_append, List.mem_append]
  simp only [mem_ids_firstCopies, List.not_mem_nil, not_false_iff, and_true]
  by_cases hreplayed : id ∈ replayed.map Envelope.id
  · have hpos := List.count_pos_iff.mpr hreplayed
    by_cases hlate : id ∈ late.map Envelope.id
    · refine iff_of_false ?_ fun h ↦ h.2 (Or.inl hreplayed) hlate
      rw [if_pos hlate]
      omega
    · simp [hreplayed, hlate]
  · have hzero := List.count_eq_zero.mpr hreplayed
    by_cases htaken : id ∈ taken.map Envelope.id <;> by_cases hlate : id ∈ late.map Envelope.id <;>
      simp [hzero, hreplayed, htaken, hlate]

/-- **When the listener is offered a message twice.**  In every run of a transport that messages are
kept for, of what came in before the phase was normal the listener is offered, in this order, what
was replayed in the replay phase, the first copies of what else the worker took out of the queue,
and the first copies of what it took after it was too late.  So two copies of a message are offered
just if it was replayed twice in the replay phase, or a worker that is late takes a copy of what was
replayed or taken before; and no worker is late that ended before it was waited for long enough. -/
theorem count_offers_le_one_iff {settings : Settings} {origin : Origin} {outside : Outside}
    {moves : List Move} {s : Session} (hpersistent : settings.persistent = true)
    (hrun : (start settings origin outside).run moves = some s) :
    let l := (start settings origin outside).ledger {} moves
    l.offers = l.replayed ++ firstCopies (l.replayed.map Envelope.id) l.taken ++
        firstCopies [] l.late ∧
      l.offers.Sublist s.offers ∧
      (∀ id, (l.offers.map Envelope.id).count id ≤ 1 ↔
        (l.replayed.map Envelope.id).count id ≤ 1 ∧
          (id ∈ (l.replayed ++ l.taken).map Envelope.id → id ∉ l.late.map Envelope.id)) ∧
      (.late ∉ moves → l.late = []) := by
  intro l
  have h : s.Accounts l := (accounts_start hpersistent origin outside).run hrun
  refine ⟨h.offers, h.sublist, fun id ↦ ?_, fun hlate ↦ h.late ?_⟩
  · rw [h.offers]
    exact count_ids_copies_le_one_iff l.replayed l.taken l.late id
  · refine Bool.eq_false_iff.mpr fun hforgotten ↦ ?_
    obtain hbefore | hmem := late_mem_of_forgotten hforgotten
    · cases hbefore
    · exact hlate hmem

/-- Somebody asks for the replay. -/
def asks : Move := .request ⟨{}, fun _ ↦ [], fun _ ↦ false⟩

/-- The first message comes in live and is replayed; then the worker is late for the third one. -/
def copiedOnce : List Move :=
  [.receive (event 1), asks, .receive (fromService (Replayed.mk (.fresh 0) (event 1))),
    .receive (event 2), .receive (event 3),
    .receive (fromService (ReplayPhaseEnded.mk (.fresh 0))), .turn, .turn,
    .receive (fromService (SafetyPhaseEnded.mk (.fresh 0))), .late, .judge .accepted, .turn]

/-- A worker that is late does no harm if it finds nothing that was offered before. -/
theorem offers_copiedOnce :
    ∃ s l, (start { persistent := true } ⟨⟨"Abc.Self.0"⟩, ""⟩ {}).run copiedOnce = some s ∧
      (start { persistent := true } ⟨⟨"Abc.Self.0"⟩, ""⟩ {}).ledger {} copiedOnce = l ∧
      l.replayed = [{ event 1 with replayed := true }] ∧ l.taken = [event 1, event 2] ∧
      l.late = [event 3] ∧
      l.offers = [{ event 1 with replayed := true }, event 2, event 3] ∧
      l.offers.Sublist s.offers ∧ ∀ id, (l.offers.map Envelope.id).count id ≤ 1 := by
  have hdone :
      let s := start { persistent := true } ⟨⟨"Abc.Self.0"⟩, ""⟩ {}
      let l := s.ledger {} copiedOnce
      (s.run copiedOnce).isSome ∧ l.replayed = [{ event 1 with replayed := true }] ∧
        l.taken = [event 1, event 2] ∧ l.late = [event 3] := by decide +kernel
  obtain ⟨hsome, hreplayed, htaken, hlate⟩ := hdone
  obtain ⟨s, hrun⟩ := Option.isSome_iff_exists.mp hsome
  obtain ⟨hoffers, hsublist, hiff, -⟩ := count_offers_le_one_iff rfl hrun
  refine ⟨s, _, hrun, rfl, hreplayed, htaken, hlate, ?_, hsublist, fun id ↦ (hiff id).mpr ?_⟩
  · rw [hoffers, hreplayed, htaken, hlate]
    rfl
  · rw [hreplayed, htaken, hlate]
    refine ⟨List.count_le_length, fun hid hlate ↦ ?_⟩
    obtain rfl : id = (event 3).id := by simpa using hlate
    revert hid
    decide

/-- The first message is replayed twice. -/
def replayedTwice : List Move :=
  [asks, .receive (fromService (Replayed.mk (.fresh 0) (event 1))),
    .receive (fromService (Replayed.mk (.fresh 0) (event 1)))]

/-- The first message comes in twice, and the worker is late for the second copy. -/
def drainedLate : List Move :=
  [asks, .receive (event 1), .receive (event 2), .receive (event 1),
    .receive (fromService (ReplayPhaseEnded.mk (.fresh 0))), .turn, .judge .accepted, .turn,
    .receive (fromService (SafetyPhaseEnded.mk (.fresh 0))), .late, .judge .accepted, .turn]

/-- A message that is replayed twice is offered twice, and so is one that a late worker finds again.
-/
theorem offers_replayedTwice_drainedLate :
    let s := start { persistent := true } ⟨⟨"Abc.Self.0"⟩, ""⟩ {}
    ((s.run replayedTwice).isSome ∧
        ((s.ledger {} replayedTwice).offers.map Envelope.id).count (.fresh 1) = 2) ∧
      (s.run drainedLate).isSome ∧
        ((s.ledger {} drainedLate).offers.map Envelope.id).count (.fresh 1) = 2 := by
  decide +kernel

end Session

end ServiceBus.Durable
