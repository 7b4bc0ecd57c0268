import ServiceBus.Directory.Feed
import ServiceBus.Durable.Transport
import ServiceBus.Router

/-!
# A world for a bus

A bus is tried out in a world of its own: directory servers that answer as planned, a carrier and a
listener that fail as planned, and a clock that stands still unless somebody waits.  The world keeps
a record of all that happens in it.

Time is counted in milliseconds.  What takes time in the background is an `Offering`, by which the
worker of a transport waits for the listener, and a `Waiter`, which waits for a replay to begin.
-/

set_option autoImplicit false

namespace ServiceBus.Simulation

open Directory Durable

/-! ## Plans -/

/-- How a directory server deals with a command: it lets events happen, takes some time, lets other
events happen, and then answers, or never does. -/
structure Reply where
  /-- The events that happen at once. -/
  events : List Event := []
  /-- How long it takes, in milliseconds. -/
  delayMs : Nat := 0
  /-- The events that happen just before the answer. -/
  lateEvents : List Event := []
  /-- The answer. -/
  answer : Answer := .replied 0 (some [])

/-- How the listener deals with messages.  Whether it gets done with one, and how long it takes, is
decided when the message is offered; what becomes of the message, when the listener is done. -/
structure ListenerPlan where
  /-- The messages that it refuses. -/
  refused : List Uuid := []
  /-- The messages that it breaks down on. -/
  broken : List Uuid := []
  /-- It never gets done with a message. -/
  hangs : Bool := false
  /-- How long it takes, in milliseconds. -/
  delayMs : Nat := 0

/-- What becomes of a message that the listener is offered. -/
inductive Outcome
  | accepted
  | refused
  | hung
  | broken
deriving DecidableEq

namespace ListenerPlan

/-- What becomes of a message that the listener is done with. -/
def outcome (p : ListenerPlan) (message : Uuid) : Outcome :=
  if p.broken.contains message then .broken
  else if p.refused.contains message then .refused
  else .accepted

end ListenerPlan

namespace Outcome

/-- The failure of a message that is refused. -/
def refusal : Failure := .transport "handler rejected the message"

/-- What the worker makes of an outcome, unless it waits forever. -/
def verdict? : Outcome → Option Verdict
  | accepted => some .accepted
  | refused => some (.refused refusal)
  | hung => none
  | broken => some .broken

end Outcome

/-! ## Records -/

/-- A command that a directory server was given. -/
structure Dispatch where
  /-- The server. -/
  server : Peer
  /-- What it is asked to do. -/
  command : Command
  /-- The body of the command. -/
  body : Json
  /-- The standing of the client at that moment. -/
  standing : Standing
  /-- The peers that the client knew at that moment. -/
  known : List PeerId

/-- A message that the listener was offered. -/
structure Delivery where
  /-- The message. -/
  message : Envelope
  /-- What became of it. -/
  outcome : Outcome

/-! ## The background -/

/-- A message that the listener is busy with on behalf of a worker. -/
structure Offering where
  /-- The number of the transport that the worker belongs to. -/
  node : Nat
  /-- The message. -/
  message : Envelope
  /-- When the listener is done with it, if ever. -/
  due : Option Nat

/-- The listener is done with the message. -/
def Offering.isDone (o : Offering) (now : Nat) : Bool := o.due.any fun t ↦ t ≤ now

/-- A transport in the world. -/
structure Node where
  /-- The transport. -/
  transport : Transport
  /-- Nobody holds it any more. -/
  dropped : Bool := false
  /-- How far it has read the feed of the directory, while it follows it. -/
  place : Option Nat := none

/-- Somebody who has asked for a replay on a transport. -/
structure Waiter where
  /-- The number of the transport. -/
  node : Nat
  /-- Until when the replay may begin, once it was asked for. -/
  deadline : Option Nat := none
  /-- What came of it. -/
  result : Option (Except Failure Unit) := none

/-- A directory whose contents are given. -/
structure Fixed where
  /-- The subscribers. -/
  index : Index := {}
  /-- The peers for which messages are kept. -/
  persistent : List PeerId := []
  /-- The updates of the directory. -/
  feed : Feed

/-- The world. -/
structure World where
  /-- The time since the beginning. -/
  now : Nat := 0
  /-- The settings of the bus. -/
  settings : Settings
  /-- The local peer. -/
  origin : Origin
  /-- The client of the directory. -/
  client : Client
  /-- The updates of the client. -/
  feed : Feed
  /-- The directory that routing and the transports see, unless it is that of the client. -/
  fixed : Option Fixed := none
  /-- How far an observer has read the updates of the client, if there is one. -/
  observer : Option Nat := none
  /-- The answers that the directory servers are going to give. -/
  replies : Table PeerId (List Reply) := .empty
  /-- What the listener is going to do. -/
  listener : ListenerPlan := {}
  /-- The carrier and the notices. -/
  outside : Outside := {}
  /-- The commands that directory servers were given, oldest first. -/
  dispatches : List Dispatch := []
  /-- The messages that the listener was offered, oldest first. -/
  deliveries : List Delivery := []
  /-- What routing remembers. -/
  router : Router := {}
  /-- The transports, oldest first. -/
  nodes : List Node := []
  /-- The transport in hand. -/
  inHand : Option Nat := none
  /-- The messages that the listener is busy with, in the order in which they were offered. -/
  offerings : List Offering := []
  /-- Those who wait for a replay, oldest first. -/
  waiters : List Waiter := []

namespace World

/-- The world of a bus at its beginning. -/
def start (settings : Settings) (clock : Clock) (self : PeerId) (fixed observed : Bool) :
    World where
  settings := settings
  origin := ⟨self, "tcp://" ++ self.text ++ ":1"⟩
  client := .ofSettings settings clock
  feed := .ofSize settings.peerUpdateQueueSize
  fixed := if fixed then some { feed := .ofSize settings.peerUpdateQueueSize } else none
  observer := if observed then some 0 else none

/-- The states of all instances. -/
def roster (w : World) : Roster := w.client.registry.roster

/-- Changes the states of instances. -/
def withRoster (w : World) (roster : Roster) : World :=
  { w with client := { w.client with registry := { w.client.registry with roster } } }

/-- The directory as routing and the transports see it. -/
def view (w : World) : View :=
  match w.fixed with
  | some f => ⟨w.roster, f.index.handlers, fun id ↦ f.persistent.contains id⟩
  | none => w.client.registry.view

/-- What the directory that routing and the transports see tells about a peer.  A directory whose
contents are given tells nothing. -/
def descriptor? (w : World) (id : PeerId) : Option (Descriptor PeerRef) :=
  if w.fixed.isSome then none else w.client.registry.descriptor? id

/-- The updates that the transports follow. -/
def updates (w : World) : Feed :=
  match w.fixed with
  | some f => f.feed
  | none => w.feed

/-- Gives a notice. -/
def note (w : World) (notice : Notice) : World := { w with outside := w.outside.note notice }

/-- Somebody follows the updates of the client. -/
def isFollowed (w : World) : Bool :=
  w.observer.isSome || (w.fixed.isNone && w.nodes.any fun n ↦ n.place.isSome)

/-- Gives the notices of the client, and publishes the updates among them. -/
def announce (w : World) (notices : List Notice) : World :=
  notices.foldl (fun w notice ↦
    let w := w.note notice
    match notice with
    | .updated u =>
      if w.isFollowed then { w with feed := w.feed.publish u } else w.note (.updateUnheard u.peer)
    | _ => w) w

/-- Changes a transport and its surroundings. -/
def modifyNode (w : World) (i : Nat) (f : Node → Node) : World :=
  { w with nodes := w.nodes.modify i f }

/-- Lets a transport act. -/
def act {α : Type} (w : World) (i : Nat) (default : α)
    (f : Transport → Outside → Transport × Outside × α) : World × α :=
  match w.nodes[i]? with
  | none => (w, default)
  | some n =>
    let (transport, outside, a) := f n.transport w.outside
    ({ w with outside }.modifyNode i fun n ↦ { n with transport }, a)

/-- Somebody still holds a transport: whoever made it, or somebody who waits for a replay. -/
def isHeld (w : World) (i : Nat) : Bool :=
  (w.nodes[i]?.any fun n ↦ !n.dropped) ||
    w.waiters.any fun waiter ↦ waiter.node = i && waiter.result.isNone

/-! ## Waiters -/

/-- Somebody who waits asks for the replay, if that was not done, and sees whether it has begun. -/
def runWaiter (w : World) (waiter : Waiter) : World × Waiter :=
  let (w, waiter) :=
    if waiter.result.isSome ∨ waiter.deadline.isSome then (w, waiter)
    else
      let (w, request) := w.act waiter.node .needless fun t o ↦ t.requestReplay w.view o
      match request with
      | .needless => (w, { waiter with result := some (.ok ()) })
      | .failed failure => (w, { waiter with result := some (.error failure) })
      | .pending => (w, { waiter with deadline := some (w.now + w.settings.startReplayTimeoutMs) })
  match waiter.result, waiter.deadline with
  | none, some deadline =>
    if w.nodes[waiter.node]?.any fun n ↦ n.transport.reception.replayBegun then
      (w, { waiter with result := some (.ok ()) })
    else if deadline ≤ w.now then
      let failure := .persistenceUnreachable w.settings.startReplayTimeoutMs
      (w, { waiter with result := some (.error failure) })
    else (w, waiter)
  | _, _ => (w, waiter)

/-- Lets all who wait go on. -/
def runWaiters (w : World) : World :=
  let (w, waiters) := w.waiters.foldl (fun (w, done) waiter ↦
    let (w, waiter) := w.runWaiter waiter
    (w, done ++ [waiter])) (w, [])
  { w with waiters }

/-! ## Workers -/

/-- Records what became of a message that the listener was offered. -/
def record (w : World) (message : Envelope) (outcome : Outcome) : World :=
  { w with deliveries := w.deliveries ++ [⟨message, outcome⟩] }

/-- The listener is done with a message. -/
def conclude (w : World) (message : Envelope) : World × Outcome :=
  let outcome := w.listener.outcome message.id
  (w.record message outcome, outcome)

/-- The worker of a transport offers a message to the listener. -/
def offer (w : World) (i : Nat) (message : Envelope) : World :=
  if w.listener.hangs then
    { w.record message .hung with offerings := w.offerings ++ [⟨i, message, none⟩] }
  else { w with offerings := w.offerings ++ [⟨i, message, some (w.now + w.listener.delayMs)⟩] }

/-- The worker of a transport hears from the listener, if the listener is done. -/
def finishOffering (w : World) (i : Nat) : World :=
  match w.offerings.find? fun o ↦ o.node = i && o.isDone w.now with
  | none => w
  | some offering =>
    let w := { w with offerings := w.offerings.filter fun o ↦ o.node ≠ i }
    let (w, outcome) := w.conclude offering.message
    match outcome.verdict? with
    | none => w
    | some verdict =>
      (w.act i () fun t o ↦
        let (reception, notices) := t.reception.judge verdict
        ({ t with reception }, o.noteAll notices, ())).1

/-- The worker of a transport takes a message from the queue. -/
def takeTurn (w : World) (i : Nat) : World :=
  let (w, turn) := w.act i .rest fun t o ↦
    let (reception, turn) := t.reception.turn
    ({ t with reception }, o, turn)
  match turn with
  | .rest => w
  | .skip message => w.note (.duplicateSkipped message)
  | .offer message =>
    let (w, offered) := w.act i none fun t o ↦
      match t.offered? message o with
      | (some message, o) => (t, o, some message)
      | (none, o) => ({ t with reception := (t.reception.judge .accepted).1 }, o, none)
    match offered with
    | some message => w.offer i message
    | none => w

/-- The worker of a transport goes on as far as it can. -/
def runWorker (w : World) (i : Nat) : World :=
  let queued := (w.nodes[i]?.map fun n ↦ n.transport.reception.queue.length).getD 0
  Nat.repeat (fun w ↦ takeTurn (finishOffering w i) i) (queued + 2) w

/-- The order in which the workers go on: first those that the listener is done with, in the order
in which it got done, and then all of them. -/
def workerOrder (w : World) : List Nat :=
  let done := w.offerings.filter fun o ↦ o.isDone w.now
  (done.mergeSort fun a b ↦ a.due.getD 0 ≤ b.due.getD 0).map Offering.node ++
    List.range w.nodes.length

/-! ## Those who follow the directory -/

/-- A transport stops following the directory. -/
def unfollow (w : World) (i : Nat) : World := w.modifyNode i fun n ↦ { n with place := none }

/-- A transport reads once in the feed of the directory, if it follows it. -/
def readFeed (w : World) (i : Nat) : World :=
  match w.nodes[i]?.bind Node.place with
  | none => w
  | some place =>
    let (reading, place) := w.updates.read place
    let go (w : World) (f : Transport → Outside → Transport × Outside) : World :=
      if w.isHeld i then
        let w := w.modifyNode i fun n ↦ { n with place := some place }
        (w.act i () fun t o ↦
          let (t, o) := f t o
          (t, o, ())).1
      else w.unfollow i
    match reading with
    | .nothing => w
    | .ended => (w.note .updatesEnded).unfollow i
    | .missed count => go (w.note (.updatesMissed count)) fun t o ↦ t.catchUp w.view o
    | .update u => go w fun t o ↦ t.hear w.view u o

/-- A transport reads in the feed as far as it goes. -/
def followFeed (w : World) (i : Nat) : World :=
  let behind := match w.nodes[i]?.bind Node.place with
    | some place => w.updates.sent.size - place
    | none => 0
  Nat.repeat (fun w ↦ readFeed w i) (behind + 2) w

/-! ## Time -/

/-- Everything in the background goes on as far as it can without time passing. -/
def settle (w : World) : World :=
  let w := w.runWaiters
  let w := w.workerOrder.foldl runWorker w
  (List.range w.nodes.length).foldl followFeed w

/-- The times at which something in the background is due. -/
def timers (w : World) : List Nat :=
  w.offerings.filterMap Offering.due ++
    w.waiters.filterMap fun waiter ↦ if waiter.result.isNone then waiter.deadline else none

/-- A bound on how often something in the background can become due. -/
def errands (w : World) : Nat :=
  w.nodes.foldr (fun n m ↦ n.transport.reception.queue.length + 1 + m) w.waiters.length

/-- Lets time pass until something is the case or a time has come, whichever is first.  At that time
nothing in the background goes on before the caller does. -/
def pass (ready : World → Bool) (due : Option Nat) : Nat → World → World
  | 0, w => w
  | fuel + 1, w =>
    if ready w || due.any fun t ↦ t ≤ w.now then w
    else
      let w := w.settle
      if ready w then w
      else
        match (due.toList ++ w.timers).min? with
        | none => w
        | some t => pass ready due fuel { w with now := max w.now t }

/-- Waits until something is the case, or until a time has come. -/
def waitFor (w : World) (ready : World → Bool) (due : Option Nat) : World :=
  w.pass ready due (w.errands + 2)

/-- Waits until a time has come. -/
def waitUntil (w : World) (due : Nat) : World := w.waitFor (fun _ ↦ false) (some due)

end World

end ServiceBus.Simulation
