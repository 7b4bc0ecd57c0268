import ServiceBus.Durable.Transport

/-!
# What goes on around a transport

A transport does one thing at a time, and several parties have a hand in it: whoever asks for a
replay, the carrier that brings messages, the worker that empties the queue, and the listener.  A
`Session` is the transport with what the listener was offered so far, and a `Move` is what one of
the parties does next; the order of moves is free.

Whoever ends a safety phase waits for the worker, and holds the phase while waiting.  Until the
worker has ended, or has been waited for long enough, no other party that looks at the phase can
move.

The lemmas of this file say what `Transport.receive` does with each kind of message.
-/

set_option autoImplicit false

namespace ServiceBus.Durable

open Directory (View)

/-- Who waits for the worker. -/
inductive Waiting
  /-- Whoever brought the end of the safety phase of a replay. -/
  | phaseEnd (session : Uuid)
  /-- Whoever stops the transport. -/
  | stop
deriving DecidableEq

/-- A transport with a listener, and what goes on around it. -/
structure Session where
  /-- The transport. -/
  transport : Transport
  /-- What it acts upon. -/
  outside : Outside
  /-- Who waits for the worker, and holds the phase. -/
  waiting : Option Waiting := none
  /-- The messages that the listener was offered, oldest first. -/
  offers : List Envelope := []

/-- What one of the parties does. -/
inductive Move
  /-- Somebody asks for the replay, as the directory is seen then. -/
  | request (v : View)
  /-- The carrier brings a message. -/
  | receive (message : Envelope)
  /-- The worker looks into the queue. -/
  | turn
  /-- The listener is done with the message that the worker offered. -/
  | judge (verdict : Verdict)
  /-- The worker has ended, and is not waited for any longer. -/
  | joined
  /-- The worker has been waited for long enough. -/
  | late
  /-- Somebody stops the transport. -/
  | stop

namespace Session

/-- A transport that was just made and has a listener. -/
def start (settings : Settings) (origin : Origin) (outside : Outside) : Session where
  transport := { Transport.ofSettings settings origin with hasListener := true }
  outside := outside

/-- Changes the receiving side, and gives notices. -/
def update (s : Session) (r : Reception) (notices : List Notice) : Session :=
  { s with
    transport := { s.transport with reception := r }
    outside := s.outside.noteAll notices }

/-- Sees to what is still to be done about a message that came in. -/
def follow (s : Session) : Transport × Outside × Reaction → Session
  | (transport, outside, .done _) => { s with transport, outside }
  | (transport, outside, .offer message) =>
    { s with transport, outside, offers := s.offers ++ [message] }
  | (transport, outside, .await session) =>
    { s with transport, outside, waiting := some (.phaseEnd session) }

/-- The worker looks into the queue. -/
def work (s : Session) : Session :=
  match s.transport.reception.turn with
  | (r, .rest) => s.update r []
  | (r, .skip message) => s.update r [.duplicateSkipped message]
  | (r, .offer message) =>
    if s.transport.hasListener then { s.update r [] with offers := s.offers ++ [message] }
    else s.update (r.judge .accepted).1 [.noListener message.id message.type]

/-- Whoever waits for the worker goes on. -/
def wake (s : Session) : Option Session :=
  s.waiting.map fun
    | .phaseEnd session =>
      let (transport, outside) := s.transport.enterNormal session s.outside
      { s with transport, outside, waiting := none }
    | .stop =>
      { s with
        outside := s.outside.noteAll (s.transport.reception.awaited s.transport.joinTimeoutMs)
        waiting := none }

/-- The session after a move, if that move can be made now. -/
def step (s : Session) : Move → Option Session
  | .request v =>
    if s.waiting.isSome then none
    else
      let (transport, outside, _) := s.transport.requestReplay v s.outside
      some { s with transport, outside }
  | .receive message =>
    if s.waiting.isSome && !message.is Stopping then none
    else some (s.follow (s.transport.receive message s.outside))
  | .turn => some s.work
  | .judge verdict =>
    match s.transport.reception.worker with
    | .offering _ =>
      let (r, notices) := s.transport.reception.judge verdict
      some (s.update r notices)
    | _ => none
  | .joined => if s.transport.reception.workerEnded then s.wake else none
  | .late => if s.transport.reception.workerEnded then none else s.wake
  | .stop =>
    if s.waiting.isSome then none
    else
      let (r, awaits) := s.transport.reception.stop
      some { s.update r [] with waiting := if awaits then some .stop else none }

/-- The session after several moves. -/
def run : Session → List Move → Option Session
  | s, [] => some s
  | s, move :: moves => (s.step move).bind fun s ↦ s.run moves

theorem step_receive {s : Session} (h : s.waiting = none) (m : Envelope) :
    s.step (.receive m) = some (s.follow (s.transport.receive m s.outside)) := by
  simp [step, h]

/-- While somebody waits, only messages come in that need not look at the phase. -/
theorem step_receive_of_waiting {s : Session} {w : Waiting} (h : s.waiting = some w) {m : Envelope}
    (hm : m.is Stopping = false) : s.step (.receive m) = none := by
  simp [step, h, hm]

@[simp]
theorem update_self (s : Session) : s.update s.transport.reception [] = s := by
  simp [update, Outside.noteAll]

theorem work_of_rest {s : Session} {r : Reception} (h : s.transport.reception.turn = (r, .rest)) :
    s.work = s.update r [] := by
  rw [work, h]

theorem work_of_skip {s : Session} {r : Reception} {id : Uuid}
    (h : s.transport.reception.turn = (r, .skip id)) :
    s.work = s.update r [.duplicateSkipped id] := by
  rw [work, h]

theorem work_of_offer {s : Session} (hlistener : s.transport.hasListener = true) {r : Reception}
    {m : Envelope} (h : s.transport.reception.turn = (r, .offer m)) :
    s.work = { s.update r [] with offers := s.offers ++ [m] } := by
  simp [work, h, hlistener]

/-- The listener accepts what it was offered, and the worker waits for the next message. -/
theorem step_accept {s : Session} {m : Envelope}
    (h : s.transport.reception.worker = .offering m) :
    s.step (.judge .accepted) =
      some (s.update { s.transport.reception with worker := .idle } []) := by
  simp [step, Reception.judge, h]

/-- Nothing changes when there is no replay to be asked for. -/
theorem step_request_of_needless {s s' : Session} {v : View}
    (h : s.transport.reception.open? s.outside.fresh.1 = none)
    (hstep : s.step (.request v) = some s') : s' = s := by
  rw [step] at hstep
  split at hstep
  · cases hstep
  · simpa [Transport.requestReplay, h] using hstep.symm

theorem follow_nothing (s : Session) (r : Reception) (notices : List Notice) :
    s.follow (s.transport.react (r, notices, .nothing) s.outside) = s.update r notices := rfl

theorem follow_offer {s : Session} (h : s.transport.hasListener = true) (r : Reception)
    (notices : List Notice) (m : Envelope) :
    s.follow (s.transport.react (r, notices, .offer m) s.outside) =
      { s.update r notices with offers := s.offers ++ [m] } := by
  simp [Transport.react, Transport.offered?, h, follow, update]

theorem follow_await (s : Session) (r : Reception) (notices : List Notice) (session : Uuid) :
    s.follow (s.transport.react (r, notices, .await session) s.outside) =
      { s.update r notices with waiting := some (.phaseEnd session) } := rfl

theorem reception_follow_react (s : Session) (received : Reception × List Notice × Reception.Duty) :
    (s.follow (s.transport.react received s.outside)).transport.reception = received.1 := by
  obtain ⟨r, notices, duty⟩ := received
  cases duty with
  | nothing => rfl
  | await session => rfl
  | offer m =>
    rw [Transport.react]
    cases hlistener : s.transport.hasListener <;> simp [Transport.offered?, follow]

/-- What a move does that is no request: a message comes in, the worker looks into the queue or
hears what the listener says, whoever waits for the worker goes on, or the transport stops. -/
inductive Moved (s : Session) : Move → Session → Prop
  | received (m : Envelope) : Moved s (.receive m) (s.follow (s.transport.receive m s.outside))
  | worked : Moved s .turn s.work
  | judged (verdict : Verdict) :
      Moved s (.judge verdict) (s.update (s.transport.reception.judge verdict).1
        (s.transport.reception.judge verdict).2)
  | woken {move : Move} {s' : Session} (hmove : move = .joined ∨ move = .late)
      (hwake : s.wake = some s') : Moved s move s'
  | stopped :
      Moved s .stop { s.update s.transport.reception.stop.1 [] with
        waiting := if s.transport.reception.stop.2 then some .stop else none }

theorem moved_of_step {s s' : Session} {move : Move} (hrequest : ∀ v, move ≠ .request v)
    (hstep : s.step move = some s') : s.Moved move s' := by
  cases move with
  | request v => exact absurd rfl (hrequest v)
  | receive m =>
    rw [step] at hstep
    split at hstep
    · cases hstep
    · obtain rfl := Option.some.inj hstep
      exact .received m
  | turn =>
    obtain rfl := Option.some.inj hstep
    exact .worked
  | judge verdict =>
    rw [step] at hstep
    split at hstep
    · obtain rfl := Option.some.inj hstep
      exact .judged verdict
    · cases hstep
  | joined =>
    rw [step] at hstep
    split at hstep
    · exact .woken (Or.inl rfl) hstep
    · cases hstep
  | late =>
    rw [step] at hstep
    split at hstep
    · cases hstep
    · exact .woken (Or.inr rfl) hstep
  | stop =>
    rw [step] at hstep
    split at hstep
    · cases hstep
    · obtain rfl := Option.some.inj hstep
      exact .stopped

theorem run_append (s : Session) (moves moves' : List Move) :
    s.run (moves ++ moves') = (s.run moves).bind fun s ↦ s.run moves' := by
  induction moves generalizing s with
  | nil => rfl
  | cons move moves ih =>
    rw [List.cons_append, run, run, Option.bind_assoc]
    exact Option.bind_congr fun s' _ ↦ ih s'

theorem run_cons_eq_some {s s' : Session} {move : Move} {moves : List Move}
    (h : s.run (move :: moves) = some s') :
    ∃ s'', s.step move = some s'' ∧ s''.run moves = some s' :=
  Option.bind_eq_some_iff.mp h

theorem run_append_eq_some {s s' : Session} {moves moves' : List Move}
    (h : s.run (moves ++ moves') = some s') :
    ∃ s'', s.run moves = some s'' ∧ s''.run moves' = some s' := by
  rw [run_append] at h
  exact Option.bind_eq_some_iff.mp h

/-- What each move of a kind keeps, of the moves so far and the session, any number of them keep. -/
theorem run_keeps (P : List Move → Session → Prop) {kind : Move → Prop}
    (hkeeps : ∀ {made move s s'}, P made s → kind move → s.step move = some s' →
      P (made ++ [move]) s')
    {moves : List Move} {s s' : Session} (h : P [] s) (hmoves : ∀ move ∈ moves, kind move)
    (hrun : s.run moves = some s') : P moves s' := by
  suffices hall : ∀ made, P made s → P (made ++ moves) s' from hall [] h
  clear h
  induction moves generalizing s with
  | nil =>
    obtain rfl := Option.some.inj hrun
    intro made h
    rwa [List.append_nil]
  | cons move moves ih =>
    obtain ⟨s₁, hstep, hrest⟩ := run_cons_eq_some hrun
    intro made h
    have hnext := ih (fun move' hmove' ↦ hmoves move' (by simp [hmove'])) hrest (made ++ [move])
      (hkeeps h (hmoves move (by simp)) hstep)
    rwa [List.append_assoc, List.singleton_append] at hnext

end Session

/-! ## Kinds of messages -/

/-- A message that is none of those of the persistence service. -/
def isLive (m : Envelope) : Bool :=
  !m.is Stopping && !m.is Replayed && !m.is ReplayPhaseEnded && !m.is SafetyPhaseEnded

theorem type_eq_of_decode {α : Type} [Message α] {m : Envelope} {a : α} (h : m.decode α = .ok a) :
    m.type = Message.type α := by
  unfold Envelope.decode at h
  split at h
  · next his => simpa [Envelope.is] using his
  · cases h

theorem is_stopping_of_isLive {m : Envelope} (h : isLive m) : m.is Stopping = false := by
  simp only [isLive, Bool.and_eq_true, Bool.not_eq_true'] at h
  exact h.1.1.1

theorem isLive_eq_false_of_decode_replayed {m : Envelope} {body : Replayed}
    (h : m.decode Replayed = .ok body) : isLive m = false := by
  simp [isLive, Envelope.is, type_eq_of_decode h]

theorem is_stopping_of_decode_replayed {m : Envelope} {body : Replayed}
    (h : m.decode Replayed = .ok body) : m.is Stopping = false := by
  simp [Envelope.is, type_eq_of_decode h]
  decide

namespace Transport

variable {t : Transport} {m : Envelope} {o : Outside}

theorem receive_live (h : isLive m) : t.receive m o = t.react (t.reception.receiveLive m) o := by
  simp only [isLive, Bool.and_eq_true, Bool.not_eq_true'] at h
  obtain ⟨⟨⟨hstopping, hreplayed⟩, hreplay⟩, hsafety⟩ := h
  simp [receive, hstopping, hreplayed, hreplay, hsafety]

theorem receive_replayed {body : Replayed} (h : m.decode Replayed = .ok body) :
    t.receive m o = t.react (t.reception.receiveReplayed body) o := by
  have htype := type_eq_of_decode h
  have hstopping : m.is Stopping = false := by simp [Envelope.is, htype]; decide
  have hreplayed : m.is Replayed = true := by simp [Envelope.is, htype]
  simp [receive, hstopping, hreplayed, h]

theorem receive_replayPhaseEnded {body : ReplayPhaseEnded}
    (h : m.decode ReplayPhaseEnded = .ok body) :
    t.receive m o = t.react ((t.reception.endReplayPhase body.replay).1,
      (t.reception.endReplayPhase body.replay).2, .nothing) o := by
  have htype := type_eq_of_decode h
  have hstopping : m.is Stopping = false := by simp [Envelope.is, htype]; decide
  have hreplayed : m.is Replayed = false := by simp [Envelope.is, htype]; decide
  have hreplay : m.is ReplayPhaseEnded = true := by simp [Envelope.is, htype]
  simp [receive, hstopping, hreplayed, hreplay, h]

theorem receive_safetyPhaseEnded {body : SafetyPhaseEnded}
    (h : m.decode SafetyPhaseEnded = .ok body) :
    t.receive m o = t.react (t.reception.endSafetyPhase body.replay) o := by
  have htype := type_eq_of_decode h
  have hstopping : m.is Stopping = false := by simp [Envelope.is, htype]; decide
  have hreplayed : m.is Replayed = false := by simp [Envelope.is, htype]; decide
  have hreplay : m.is ReplayPhaseEnded = false := by simp [Envelope.is, htype]; decide
  have hsafety : m.is SafetyPhaseEnded = true := by simp [Envelope.is, htype]
  simp [receive, hstopping, hreplayed, hreplay, hsafety, h]

/-- To ask for a replay changes no more than the id of the replay. -/
theorem requestReplay_fst (t : Transport) (v : View) (o : Outside) :
    (t.requestReplay v o).1 =
      match t.reception.open? o.fresh.1 with
      | some (_, reception) => { t with reception }
      | none => t := by
  rw [requestReplay]
  dsimp only
  cases t.reception.open? o.fresh.1 with
  | none => rfl
  | some opened =>
    dsimp only
    cases v.persistenceServer? with
    | none => rfl
    | some server =>
      dsimp only
      split <;> rfl

end Transport

namespace Session

/-- What becomes of a session when a message comes in.  Each kind of message does its own to the
receiving side; whatever is none of them, or cannot be read, leaves it as it is. -/
inductive Received (s : Session) (m : Envelope) : Session → Prop
  | aside {s' : Session} (unread : ∀ body, m.decode Replayed ≠ .ok body)
      (reception : s'.transport.reception = s.transport.reception)
      (listener : s'.transport.hasListener = s.transport.hasListener)
      (waiting : s'.waiting = s.waiting) (offers : s'.offers = s.offers) : Received s m s'
  | live (free : s.waiting = none) (kind : isLive m) :
      Received s m (s.follow (s.transport.react (s.transport.reception.receiveLive m) s.outside))
  | replayed {body : Replayed} (free : s.waiting = none) (kind : m.decode Replayed = .ok body) :
      Received s m
        (s.follow (s.transport.react (s.transport.reception.receiveReplayed body) s.outside))
  | replayPhaseEnded {body : ReplayPhaseEnded} (free : s.waiting = none)
      (kind : m.decode ReplayPhaseEnded = .ok body) :
      Received s m (s.update (s.transport.reception.endReplayPhase body.replay).1
        (s.transport.reception.endReplayPhase body.replay).2)
  | safetyPhaseEnded {body : SafetyPhaseEnded} (free : s.waiting = none)
      (kind : m.decode SafetyPhaseEnded = .ok body) :
      Received s m
        (s.follow (s.transport.react (s.transport.reception.endSafetyPhase body.replay) s.outside))

theorem decode_replayed_ne {m : Envelope} (h : m.is Replayed = false) (body : Replayed) :
    m.decode Replayed ≠ .ok body := by
  simp [Envelope.decode, h]

/-- A message that can be read as one of another type is no replayed one. -/
theorem decode_replayed_ne_of_decode {α : Type} [Message α] {m : Envelope} {a : α}
    (h : m.decode α = .ok a) (hne : Message.type α ≠ Message.type Replayed) (body : Replayed) :
    m.decode Replayed ≠ .ok body :=
  decode_replayed_ne (by simpa [Envelope.is, type_eq_of_decode h] using hne) body

/-- A message that cannot be read does nothing. -/
theorem Received.of_error {s : Session} {m : Envelope} (failure : Failure)
    (unread : ∀ body, m.decode Replayed ≠ .ok body)
    (h : s.transport.receive m s.outside = (s.transport, s.outside, .done (.error failure))) :
    s.Received m (s.follow (s.transport.receive m s.outside)) := by
  rw [h]
  exact .aside unread rfl rfl rfl rfl

theorem received_of_step {s s' : Session} {m : Envelope} (h : s.step (.receive m) = some s') :
    s.Received m s' := by
  rw [step] at h
  split at h
  · cases h
  · next hfree =>
    obtain rfl := Option.some.inj h
    cases hstopping : m.is Stopping with
    | true =>
      have hreplayed : m.is Replayed = false := by
        have htype : m.type = Message.type Stopping := by simpa [Envelope.is] using hstopping
        simp [Envelope.is, htype]
        decide
      rw [Transport.receive, if_pos hstopping]
      exact .aside (decode_replayed_ne hreplayed) rfl rfl rfl rfl
    | false =>
      have hwaiting : s.waiting = none := by simpa [hstopping] using hfree
      cases hreplayed : m.is Replayed with
      | true =>
        cases hdecode : m.decode Replayed with
        | ok body =>
          rw [Transport.receive_replayed hdecode]
          exact .replayed hwaiting hdecode
        | error failure =>
          exact .of_error failure (by simp [hdecode])
            (by simp [Transport.receive, hstopping, hreplayed, hdecode])
      | false =>
        cases hreplay : m.is ReplayPhaseEnded with
        | true =>
          cases hdecode : m.decode ReplayPhaseEnded with
          | ok body =>
            rw [Transport.receive_replayPhaseEnded hdecode]
            exact .replayPhaseEnded hwaiting hdecode
          | error failure =>
            exact .of_error failure (decode_replayed_ne hreplayed)
              (by simp [Transport.receive, hstopping, hreplayed, hreplay, hdecode])
        | false =>
          cases hsafety : m.is SafetyPhaseEnded with
          | true =>
            cases hdecode : m.decode SafetyPhaseEnded with
            | ok body =>
              rw [Transport.receive_safetyPhaseEnded hdecode]
              exact .safetyPhaseEnded hwaiting hdecode
            | error failure =>
              exact .of_error failure (decode_replayed_ne hreplayed)
                (by simp [Transport.receive, hstopping, hreplayed, hreplay, hsafety, hdecode])
          | false =>
            have hlive : isLive m = true := by
              simp [isLive, hstopping, hreplayed, hreplay, hsafety]
            rw [Transport.receive_live hlive]
            exact .live hwaiting hlive

end Session

end ServiceBus.Durable
