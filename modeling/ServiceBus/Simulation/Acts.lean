import ServiceBus.Simulation.World

/-!
# What is done in the world

Each act is one thing that a user of the bus does, from its beginning to its end: where it has to
wait, time passes and the background goes on.  After an act `World.settle` lets the background go on
as far as it can.
-/

set_option autoImplicit false

namespace ServiceBus.Simulation.World

open Directory Durable

/-! ## The client of the directory -/

/-- The client handles events. -/
def handle (w : World) (events : List Event) : World :=
  events.foldl (fun w e ↦
    let (client, notices) := w.client.handle e
    announce { w with client } notices) w

/-- The client handles a message, and tells whether it brings an event. -/
def handleMessage (w : World) (e : Envelope) : World × Except Failure Bool :=
  match w.client.handleMessage e with
  | .ok (isEvent, client, notices) => (announce { w with client } notices, .ok isEvent)
  | .error failure => (w, .error failure)

/-- A command as it is recorded: neighbours that tie among the subscriptions of a descriptor are put
in the order in which subscriptions are listed. -/
def recorded : Command → Command
  | .register d => .register { d with subscriptions := Subscription.listTies d.subscriptions }
  | command => command

/-- A directory server is given a command. -/
def dispatch (w : World) (a : Attempt) : World :=
  let known := w.client.registry.descriptors.map fun d ↦ d.peer.id
  let body := (recorded a.command).body w.roster
  { w with dispatches := w.dispatches ++ [⟨a.server, a.command, body, w.client.standing, known⟩] }

/-- The answer that a directory server is going to give next. -/
def nextReply (w : World) (server : PeerId) : Reply × World :=
  match w.replies.find? server with
  | some (reply :: rest) => (reply, { w with replies := w.replies.insert server rest })
  | _ => ({}, w)

/-- A directory server is tried: it does as planned, but it is only given so much time. -/
def tryServer (w : World) (a : Attempt) : World × Answer :=
  let (reply, w) := (w.dispatch a).nextReply a.server.id
  let w := w.handle reply.events
  let deadline := w.now + w.client.timeoutMs
  let due := w.now + reply.delayMs
  if deadline < due then (w.waitUntil deadline, .silent)
  else
    let w := (w.waitUntil due).handle reply.lateEvents
    match reply.answer with
    | .silent => (w.waitUntil deadline, .silent)
    | answer => (w, answer)

/-- Goes on with a call until it is finished. -/
def drive (w : World) (a : Attempt) : World × Except Failure Unit :=
  let (w, answer) := w.tryServer a
  match h : w.client.resume a answer w.now with
  | (client, notices, .finished result) => (announce { w with client } notices, result)
  | (client, notices, .waiting a') =>
    have := Client.rest_lt_of_resume h
    drive (announce { w with client } notices) a'
termination_by a.rest.length

/-- The client is called. -/
def call (w : World) (c : Call) : World × Except Failure Unit :=
  let (client, notices, progress) := w.client.begin c w.now 0
  let w := announce { w with client } notices
  match progress with
  | .finished result => (w, result)
  | .waiting a => w.drive a

/-! ## Directories whose contents are given -/

/-- Changes the contents of the directory, if they are given. -/
def modifyFixed (w : World) (f : Fixed → Fixed) : World := { w with fixed := w.fixed.map f }

/-- A peer subscribes. -/
def subscribe (w : World) (p : PeerRef) (s : Subscription) : World :=
  w.modifyFixed fun f ↦ { f with index := f.index.add p s }

/-- A peer gives a subscription up. -/
def unsubscribe (w : World) (p : PeerRef) (s : Subscription) : World :=
  w.modifyFixed fun f ↦ { f with index := f.index.remove p s }

/-- Messages are kept for these peers. -/
def setPersistent (w : World) (ids : List PeerId) : World :=
  w.modifyFixed fun f ↦ { f with persistent := ids }

/-- The directory publishes updates, unless there will be no more. -/
def publish (w : World) (updates : List Update) : World :=
  w.modifyFixed fun f ↦
    if f.feed.closed then f else { f with feed := updates.foldl Feed.publish f.feed }

/-- There will be no more updates of the directory. -/
def closeUpdates (w : World) : World :=
  w.modifyFixed fun f ↦ { f with feed := { f.feed with closed := true } }

/-! ## Routing -/

/-- The peers that an event goes to. -/
def eventTargets (w : World) (topic : Topic) : List PeerRef := Router.eventTargets w.view topic

/-- The peer that a command goes to. -/
def commandTarget (w : World) (topic : Topic) : World × Option PeerRef :=
  let (target, router, notices) := w.router.commandTarget w.view topic
  ({ w with router, outside := w.outside.noteAll notices }, target)

/-- Puts a message into an envelope. -/
def encode {α : Type} [Message α] (w : World) (a : α) (origin : Origin) : World × Envelope :=
  let (id, outside) := w.outside.fresh
  ({ w with outside }, .encode id a origin)

/-! ## The transport -/

/-- The number of the transport in hand. -/
def hand (w : World) : Nat := w.inHand.getD w.nodes.length

/-- The transport in hand. -/
def transport? (w : World) : Option Transport :=
  (w.inHand.bind fun i ↦ w.nodes[i]?).map Node.transport

/-- The transport in hand is let go. -/
def dropTransport (w : World) : World :=
  { w with inHand := none }.modifyNode w.hand fun n ↦ { n with dropped := true }

/-- Makes a transport, which the carrier hands messages to from now on.  It is taken in hand in place
of the one before. -/
def makeTransport (w : World) (hasListener : Bool) : World :=
  let transport := { Transport.ofSettings w.settings w.origin with hasListener }
  let w := w.dropTransport
  { w with nodes := w.nodes ++ [{ transport }], inHand := some w.nodes.length }

/-- The transport in hand gets a listener. -/
def setListener (w : World) : World :=
  w.modifyNode w.hand fun n ↦ { n with transport := { n.transport with hasListener := true } }

/-- The transport in hand begins to follow the directory, from now on. -/
def startTransport (w : World) : World :=
  w.modifyNode w.hand fun n ↦ { n with place := some w.updates.sent.size }

/-- Waits for the worker of a transport, for as long as it is waited for. -/
def awaitWorker (w : World) (i : Nat) : World :=
  let ended (w : World) : Bool := w.nodes[i]?.all fun n ↦ n.transport.reception.workerEnded
  w.waitFor ended (some (w.now + w.settings.safetyWorkerJoinTimeoutMs))

/-- The transport in hand stops. -/
def stopTransport (w : World) : World :=
  let i := w.hand
  let (w, awaits) := (w.unfollow i).act i false fun t o ↦
    let (reception, awaits) := t.reception.stop
    ({ t with reception }, o, awaits)
  if awaits then
    let w := w.awaitWorker i
    (w.act i () fun t o ↦ (t, o.noteAll (t.reception.awaited t.joinTimeoutMs), ())).1
  else w

/-- Somebody asks for a replay in the background. -/
def askForReplay (w : World) : World := { w with waiters := w.waiters ++ [{ node := w.hand }] }

/-- Waits for the one who has asked for a replay first; none if nobody has. -/
def awaitReplay (w : World) : World × Option (Except Failure Unit) :=
  let first (w : World) : Option (Except Failure Unit) := w.waiters.head?.bind Waiter.result
  let w := w.waitFor (fun w ↦ w.waiters.isEmpty || (first w).isSome) none
  ({ w with waiters := w.waiters.tail }, first w)

/-- Sends a message to peers. -/
def send (w : World) (message : Envelope) (targets : List Peer) : World × Except Failure Unit :=
  w.act w.hand (.ok ()) fun t o ↦
    let (result, t, o) := t.send w.view message targets o
    (t, o, result)

/-- Tells that a message was handled. -/
def ack (w : World) (message : Envelope) : World × Except Failure Unit :=
  w.act w.hand (.ok ()) fun t o ↦
    let (result, t, o) := t.ack w.view message o
    (t, o, result)

/-- What comes of a message that the carrier hands in. -/
inductive Receipt
  /-- It was dealt with. -/
  | done (result : Except Failure Unit)
  /-- The listener broke down. -/
  | broken
  /-- The listener is still busy with it. -/
  | never

/-- What comes of a message that the listener dealt with. -/
def receipt : Outcome → Receipt
  | .accepted => .done (.ok ())
  | .refused => .done (.error Outcome.refusal)
  | .hung => .never
  | .broken => .broken

/-- The carrier hands a message in.  It goes to the transport that was made last. -/
def receive (w : World) (message : Envelope) : World × Receipt :=
  let i := w.nodes.length - 1
  if !w.isHeld i then (w, .done (.ok ()))
  else
    let (w, reaction) := w.act i (.done (.ok ())) fun t o ↦ t.receive message o
    match reaction with
    | .done result => (w, .done result)
    | .offer message =>
      if w.listener.hangs then (w.record message .hung, .never)
      else
        let (w, outcome) := (w.waitUntil (w.now + w.listener.delayMs)).conclude message
        (w, receipt outcome)
    | .await session =>
      let w := w.awaitWorker i
      ((w.act i () fun t o ↦
        let (t, o) := t.enterNormal session o
        (t, o, ())).1, .done (.ok ()))

end ServiceBus.Simulation.World
