import ServiceBus.Directory.View
import ServiceBus.Durable.Outbox
import ServiceBus.Durable.Reception

/-!
# The transport that keeps messages

This transport stands between the carrier and the application.  Outward, it has the persistence
service keep a copy of every message for a peer that may be away.  Inward, it runs the replay of what
the local peer has missed.

A message that came in may ask for something that takes time: the listener has to deal with it, or
the worker has to be waited for.  `Transport.receive` then says so in its answer, and whoever called
it sees to that.
-/

set_option autoImplicit false

namespace ServiceBus.Durable

open Directory

/-- The state of a transport. -/
structure Transport where
  /-- Messages are kept for the local peer while it is away. -/
  persistent : Bool
  /-- How long the persistence service is given to begin a replay, in milliseconds. -/
  startReplayTimeoutMs : Nat
  /-- How long the worker is waited for, in milliseconds. -/
  joinTimeoutMs : Nat
  /-- The local peer. -/
  origin : Origin
  /-- There is somebody to deliver messages to. -/
  hasListener : Bool := false
  /-- The receiving side. -/
  reception : Reception
  /-- What waits for the persistence service. -/
  outbox : Outbox := {}

/-- What is still to be done about a message that came in. -/
inductive Reaction
  /-- Nothing. -/
  | done (result : Except Failure Unit)
  /-- The listener has to deal with it. -/
  | offer (message : Envelope)
  /-- The worker is to be waited for, since the safety phase of a replay is over. -/
  | await (session : Uuid)

/-- What comes of asking for a replay. -/
inductive Request
  /-- Nothing is kept for this peer, or the replay is over. -/
  | needless
  /-- The persistence service could not be asked. -/
  | failed (failure : Failure)
  /-- The persistence service is to begin. -/
  | pending

namespace Transport

/-- A transport with the given settings. -/
def ofSettings (s : Settings) (origin : Origin) : Transport where
  persistent := s.persistent
  startReplayTimeoutMs := s.startReplayTimeoutMs
  joinTimeoutMs := s.safetyWorkerJoinTimeoutMs
  origin := origin
  reception := .start s.persistent

/-! ## Outward -/

/-- Gives a command to the persistence service. -/
def tellPersistence {α : Type} [Message α] (t : Transport) (v : View) (command : α) (o : Outside) :
    Transport × Outside :=
  let (id, o) := o.fresh
  let (outbox, o) := t.outbox.give v.persistenceServer? (.encode id command t.origin) o
  ({ t with outbox }, o)

/-- Has the persistence service keep a copy of a message that was sent to peers. -/
def persist (t : Transport) (v : View) (message : Envelope) (targets : List Peer) (o : Outside) :
    Except Failure Unit × Transport × Outside :=
  let message := { message with persisted := true }
  match o.send message targets with
  | (.error failure, o) => (.error failure, t, o)
  | (.ok _, o) => (.ok (), t.tellPersistence v (⟨message, targets.map Peer.id⟩ : Persist) o)

/-- Sends a message: first to the peers for which nothing is kept, then to the others. -/
def send (t : Transport) (v : View) (message : Envelope) (targets : List Peer) (o : Outside) :
    Except Failure Unit × Transport × Outside :=
  if !message.persistent then
    let (result, o) := o.send message targets
    (result, t, o)
  else
    let (kept, others) := targets.partition fun p ↦ v.isPersistent p.id
    let (sent, o) := if others.isEmpty then (.ok (), o) else o.send message others
    match sent with
    | .error failure => (.error failure, t, o)
    | .ok _ => if kept.isEmpty then (.ok (), t, o) else t.persist v message kept o

/-- Tells that a message was handled; the persistence service hears of it if it waits for that. -/
def ack (t : Transport) (v : View) (message : Envelope) (o : Outside) :
    Except Failure Unit × Transport × Outside :=
  let (t, o) :=
    if t.persistent && message.needsAck then t.tellPersistence v (⟨message.id⟩ : Handled) o
    else (t, o)
  let (result, o) := o.ack message
  (result, t, o)

/-! ## Inward -/

/-- Whom to offer a message to: nobody, if there is no listener. -/
def offered? (t : Transport) (message : Envelope) (o : Outside) : Option Envelope × Outside :=
  if t.hasListener then (some message, o) else (none, o.note (.noListener message.id message.type))

/-- The reaction to what the reception has to do. -/
def react (t : Transport) (received : Reception × List Notice × Reception.Duty) (o : Outside) :
    Transport × Outside × Reaction :=
  let (reception, notices, duty) := received
  let t := { t with reception }
  let o := o.noteAll notices
  match duty with
  | .nothing => (t, o, .done (.ok ()))
  | .await session => (t, o, .await session)
  | .offer message =>
    match t.offered? message o with
    | (some message, o) => (t, o, .offer message)
    | (none, o) => (t, o, .done (.ok ()))

/-- The persistence service is about to stop. -/
def receiveStopping (t : Transport) (sender : Origin) (o : Outside) :
    Transport × Outside × Reaction :=
  let o := o.note (.persistenceStopping sender.sender)
  let (id, o) := o.fresh
  let (result, o) :=
    o.send (.signal id (Message.type StoppingAck) t.origin) [.live sender.sender sender.endPoint]
  ({ t with outbox := { t.outbox with down := true } }, o, .done result)

/-- A message comes in. -/
def receive (t : Transport) (message : Envelope) (o : Outside) : Transport × Outside × Reaction :=
  if message.is Stopping then t.receiveStopping message.origin o
  else if message.is Replayed then
    match message.decode Replayed with
    | .ok body => t.react (t.reception.receiveReplayed body) o
    | .error failure => (t, o, .done (.error failure))
  else if message.is ReplayPhaseEnded then
    match message.decode ReplayPhaseEnded with
    | .ok body =>
      let (reception, notices) := t.reception.endReplayPhase body.replay
      t.react (reception, notices, .nothing) o
    | .error failure => (t, o, .done (.error failure))
  else if message.is SafetyPhaseEnded then
    match message.decode SafetyPhaseEnded with
    | .ok body => t.react (t.reception.endSafetyPhase body.replay) o
    | .error failure => (t, o, .done (.error failure))
  else t.react (t.reception.receiveLive message) o

/-- The worker was waited for at the end of a safety phase. -/
def enterNormal (t : Transport) (session : Uuid) (o : Outside) : Transport × Outside :=
  let (reception, notices) := t.reception.enterNormal session t.joinTimeoutMs
  ({ t with reception }, o.noteAll notices)

/-- Asks for a replay, if there can be one. -/
def requestReplay (t : Transport) (v : View) (o : Outside) : Transport × Outside × Request :=
  let (fresh, o') := o.fresh
  match t.reception.open? fresh with
  | none => (t, o, .needless)
  | some (session, reception) =>
    let t := { t with reception }
    let server? := v.persistenceServer?
    let o := o'.note (.replayRequested session (server?.map Peer.id))
    match server? with
    | none => (t, o, .pending)
    | some server =>
      let (id, o) := o.fresh
      match o.send (.encode id (⟨session⟩ : StartReplay) t.origin) [server] with
      | (.ok _, o) => (t, o, .pending)
      | (.error failure, o) => (t, o, .failed failure)

/-! ## Following the directory -/

/-- Hears what became of a peer. -/
def hear (t : Transport) (v : View) (update : Update) (o : Outside) : Transport × Outside :=
  let (outbox, o) := t.outbox.hear v.persistenceServer? update o
  ({ t with outbox }, o)

/-- Makes up for updates that were missed. -/
def catchUp (t : Transport) (v : View) (o : Outside) : Transport × Outside :=
  let (outbox, o) := t.outbox.catchUp v.persistenceServer? o
  ({ t with outbox }, o)

end Transport

end ServiceBus.Durable
