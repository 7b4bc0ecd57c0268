import ServiceBus.Durable.Carrier
import ServiceBus.Durable.Protocol

/-!
# The outbox

What is meant for the persistence service goes through the outbox.  While the service is down, or
cannot be found, or cannot be reached, the commands wait there; when the service is heard to start
they are sent in their order.

Sending what waits is a *flush*.  It takes all commands out of the outbox, and puts back those that
it could not send.  Between two sends it waits for the carrier, so whatever may flush is written as
one function that begins it, and `Outbox.stepFlush` sends the next command.
-/

set_option autoImplicit false

namespace ServiceBus.Durable

/-- The commands that wait for the persistence service. -/
structure Outbox where
  /-- The service is known to be down. -/
  down : Bool := false
  /-- The commands, oldest first. -/
  waiting : List Envelope := []

/-- A flush that is going on. -/
structure Flush where
  /-- The persistence server. -/
  server : Peer
  /-- The commands that are still to be sent, oldest first. -/
  leaving : List Envelope

namespace Outbox

/-- The server that a command goes to, if a server is known and the service is not down. -/
def target? (b : Outbox) (server? : Option Peer) : Option Peer := if b.down then none else server?

/-- Gives a command to the persistence service, if a server of it is known and it is not down. -/
def give (b : Outbox) (server? : Option Peer) (command : Envelope) (o : Outside) :
    Outbox × Outside :=
  match b.target? server? with
  | none =>
    ({ b with waiting := b.waiting ++ [command] },
      o.note (.persistenceAwaited command.id command.type (b.waiting.length + 1)))
  | some server =>
    match o.send command [server] with
    | (.ok _, o) => (b, o)
    | (.error failure, o) =>
      ({ b with waiting := b.waiting ++ [command] },
        o.note (.persistenceSendFailed command.id failure))

/-- Begins a flush, if there is anything to send and a server to send it to. -/
def beginFlush (b : Outbox) (server? : Option Peer) (o : Outside) :
    Outbox × Option Flush × Outside :=
  if b.waiting.isEmpty then (b, none, o)
  else
    match server? with
    | none => (b, none, o.note (.flushPutOff b.waiting.length))
    | some server =>
      ({ b with waiting := [] }, some ⟨server, b.waiting⟩,
        o.note (.flushing b.waiting.length server.id))

/-- Sends the next command of a flush.  If that fails, it and the ones after it go back. -/
def stepFlush (b : Outbox) (f : Flush) (o : Outside) : Outbox × Option Flush × Outside :=
  match f.leaving with
  | [] => (b, none, o)
  | command :: rest =>
    match o.send command [f.server] with
    | (.ok _, o) => (b, some { f with leaving := rest }, o)
    | (.error failure, o) =>
      ({ b with waiting := b.waiting ++ command :: rest }, none,
        o.note (.persistenceSendFailed command.id failure))

/-- Sends the commands of a flush one after the other, until one fails. -/
def sendAll (b : Outbox) (server : Peer) : List Envelope → Outside → Outbox × Outside
  | [], o => (b, o)
  | command :: rest, o =>
    match b.stepFlush ⟨server, command :: rest⟩ o with
    | (b, some _, o) => sendAll b server rest o
    | (b, none, o) => (b, o)

/-- Sees a flush through, if one has begun. -/
def finish : Outbox × Option Flush × Outside → Outbox × Outside
  | (b, some f, o) => b.sendAll f.server f.leaving o
  | (b, none, o) => (b, o)

/-- Hears what became of a peer, and begins a flush if the persistence service has started. -/
def beginHear (b : Outbox) (server? : Option Peer) (update : Directory.Update) (o : Outside) :
    Outbox × Option Flush × Outside :=
  if update.peer.isPersistence then
    match update.action with
    | .decommissioned => ({ b with down := true }, none, o.note (.persistenceDown update.peer))
    | .started =>
      beginFlush { b with down := false } server?
        (o.note (.persistenceUp update.peer b.waiting.length))
    | .stopped | .updated => (b, none, o)
  else (b, none, o)

/-- Makes up for updates that were missed: a service that is there cannot be down, so a flush
begins. -/
def beginCatchUp (b : Outbox) (server? : Option Peer) (o : Outside) :
    Outbox × Option Flush × Outside :=
  if b.down && server?.isSome then
    beginFlush { b with down := false } server? (o.note (.persistenceFound b.waiting.length))
  else (b, none, o)

/-- Hears what became of a peer, and sees to it. -/
def hear (b : Outbox) (server? : Option Peer) (update : Directory.Update) (o : Outside) :
    Outbox × Outside :=
  finish (b.beginHear server? update o)

/-- Makes up for updates that were missed, and sees to it. -/
def catchUp (b : Outbox) (server? : Option Peer) (o : Outside) : Outbox × Outside :=
  finish (b.beginCatchUp server? o)

end Outbox

end ServiceBus.Durable
