import ServiceBus.Durable.Phase
import ServiceBus.Durable.Protocol
import ServiceBus.Notice

/-!
# Reception

What comes in is a live message, a replayed one, or the end of a phase.  A live message is *offered*
to the listener at once, unless a replay is going on: then it is held back in a queue.  A replayed
message is offered at once in the replay phase, and goes into the queue in the safety phase.

The queue is emptied by a *worker*, which starts with the safety phase.  It takes one message after
the other, passes over those whose id was offered before, and waits for the listener between two of
them.  When the safety phase ends the queue takes no more, and the worker ends with the last message
in it; whoever ends the phase waits for that, but only for so long.

A listener that breaks down takes the worker with it, and what was in the queue is lost.
-/

set_option autoImplicit false

namespace ServiceBus.Durable

/-- What comes of offering a message to the listener. -/
inductive Verdict
  | accepted
  | refused (failure : Failure)
  | broken
deriving DecidableEq

/-- What the worker is at. -/
inductive Worker
  /-- There is none yet. -/
  | absent
  /-- It waits for a message. -/
  | idle
  /-- It has offered a message, and waits for the listener. -/
  | offering (message : Envelope)
  /-- The listener broke down. -/
  | broken
  /-- It has ended, since nothing will come into the queue any more. -/
  | ended
deriving DecidableEq

/-- The receiving side of a peer. -/
structure Reception where
  /-- The phase. -/
  phase : Phase
  /-- The messages that are held back, oldest first. -/
  queue : List Envelope := []
  /-- The ids that were offered while a replay was going on. -/
  offered : List Uuid := []
  /-- The worker. -/
  worker : Worker := .absent
  /-- The persistence service has begun the replay. -/
  replayBegun : Bool := false

namespace Reception

/-- The reception of a peer at the beginning. -/
def start (persistent : Bool) : Reception where
  phase := if persistent then .replay none else .direct

/-- What is to be done with a message that came in. -/
inductive Duty
  /-- Nothing more. -/
  | nothing
  /-- It is to be offered to the listener. -/
  | offer (message : Envelope)
  /-- The worker is to be waited for, since the safety phase of a replay is over. -/
  | await (session : Uuid)

/-- Holds a message back. -/
def hold (r : Reception) (message : Envelope) : Reception × List Notice :=
  if r.worker = .broken then (r, [.queueClosed message.id])
  else ({ r with queue := r.queue ++ [message] }, [])

/-- A live message comes in. -/
def receiveLive (r : Reception) (message : Envelope) : Reception × List Notice × Duty :=
  match r.phase with
  | .replay _ | .safety _ =>
    let (r, notices) := r.hold message
    (r, notices, .nothing)
  | .direct | .normal => (r, [], .offer message)

/-- A replayed message comes in. -/
def receiveReplayed (r : Reception) (body : Replayed) : Reception × List Notice × Duty :=
  if r.phase.session = some body.replay then
    let r := { r with replayBegun := true }
    let message := { body.message with replayed := true }
    match r.phase with
    | .safety _ =>
      let (r, notices) := r.hold message
      (r, notices, .nothing)
    | _ =>
      ({ r with offered := if message.id ∈ r.offered then r.offered else message.id :: r.offered },
        [], .offer message)
  else (r, [.replayIgnored (Message.type Replayed) body.replay r.phase], .nothing)

/-- The replay phase of a replay is over. -/
def endReplayPhase (r : Reception) (session : Uuid) : Reception × List Notice :=
  match r.phase with
  | .replay current =>
    if current = some session then
      ({ r with phase := .safety session, worker := .idle, replayBegun := true },
        [.replayPhaseEnded session])
    else (r, [.replayIgnored (Message.type ReplayPhaseEnded) session r.phase])
  | _ => (r, [])

/-- The safety phase of a replay is over: the worker is to be waited for. -/
def endSafetyPhase (r : Reception) (session : Uuid) : Reception × List Notice × Duty :=
  match r.phase with
  | .safety current =>
    if current = session then ({ r with phase := .normal }, [], .await session)
    else (r, [.replayIgnored (Message.type SafetyPhaseEnded) session r.phase], .nothing)
  | _ => (r, [], .nothing)

/-- The reception stops: a safety phase is over, whatever the persistence service says.  The answer
tells whether the worker is to be waited for. -/
def stop (r : Reception) : Reception × Bool :=
  match r.phase with
  | .safety _ => ({ r with phase := .normal }, true)
  | _ => (r, false)

/-! ## The worker -/

/-- What the worker does next. -/
inductive Turn
  /-- It waits. -/
  | rest
  /-- It passes over a message. -/
  | skip (message : Uuid)
  /-- It offers a message to the listener. -/
  | offer (message : Envelope)

/-- The worker takes the next message, or ends if there will be none. -/
def turn (r : Reception) : Reception × Turn :=
  match r.worker, r.queue with
  | .idle, message :: rest =>
    if message.id ∈ r.offered then ({ r with queue := rest }, .skip message.id)
    else
      ({ r with
          queue := rest
          offered := message.id :: r.offered
          worker := .offering message },
        .offer message)
  | .idle, [] => (if r.phase = .normal then { r with worker := .ended } else r, .rest)
  | _, _ => (r, .rest)

/-- The listener has done with the message that the worker offered. -/
def judge (r : Reception) (verdict : Verdict) : Reception × List Notice :=
  match r.worker with
  | .offering message =>
    match verdict with
    | .accepted => ({ r with worker := .idle }, [])
    | .refused failure =>
      ({ r with worker := .idle }, [.heldDeliveryFailed message.id failure])
    | .broken => ({ r with worker := .broken, queue := [] }, [])
  | _ => (r, [])

/-- There is no worker that could still do anything. -/
def workerEnded (r : Reception) : Bool :=
  match r.worker with
  | .absent | .broken | .ended => true
  | .idle | .offering _ => false

/-- The notices of waiting for the worker, until it ended or for as long as it is waited for. -/
def awaited (r : Reception) (timeoutMs : Nat) : List Notice :=
  if r.worker = .broken then [.workerBroken]
  else if r.workerEnded then []
  else [.workerLate timeoutMs]

/-- The worker was waited for at the end of a safety phase. -/
def enterNormal (r : Reception) (session : Uuid) (timeoutMs : Nat) : Reception × List Notice :=
  ({ r with offered := [] }, r.awaited timeoutMs ++ [.safetyPhaseEnded session])

/-! ## Asking for a replay -/

/-- The id of the replay to ask for: that of the one asked for before, or the given one. -/
def open? (r : Reception) (fresh : Uuid) : Option (Uuid × Reception) :=
  match r.phase with
  | .replay (some session) => some (session, r)
  | .replay none => some (fresh, { r with phase := .replay (some fresh) })
  | _ => none

end Reception

end ServiceBus.Durable
