import ServiceBus.Directory.Registry
import ServiceBus.Directory.Servers
import ServiceBus.Directory.Stamps

/-!
# The client of the directory

A client registers its peer with the directory, tells its subscriptions, and leaves.  Each of these
*calls* makes one command, which is tried on one directory server after the other until one carries
it out.  Between two answers the client waits, and events of the directory come in; so a call is
written as two functions.  `Client.begin` starts it, and `Client.resume` goes on with it when the
server that was tried has answered, or has not.

While a registration is going on, events are held back.  They are applied in the order in which they
came, after the answer of the server, whether it was taken or not.
-/

set_option autoImplicit false

namespace ServiceBus.Directory

/-! ## What goes in and out -/

/-- The readings of a clock.  The last one stays. -/
structure Clock where
  /-- The next reading. -/
  next : Instant
  /-- The readings after it. -/
  later : List Instant := []

/-- Reads the clock. -/
def Clock.read (c : Clock) : Instant × Clock :=
  (c.next, match c.later with
    | [] => c
    | t :: ts => ⟨t, ts⟩)

/-- Whether the local peer is registered. -/
inductive Standing
  | unregistered
  | registering
  | registered
deriving DecidableEq, Repr, Inhabited

/-- What a client is asked to do. -/
inductive Call
  /-- Register a peer with its subscriptions. -/
  | register (self : PeerRef) (subscriptions : List Subscription)
  /-- Replace the subscriptions of the local peer. -/
  | update (subscriptions : List Subscription)
  /-- Leave the directory. -/
  | unregister

/-- What a directory server is asked to do. -/
inductive Command
  | register (descriptor : Descriptor PeerRef)
  | update (body : UpdateSubscriptions)
  | unregister (body : Unregister)

/-- What a command is called in failures. -/
def Command.operation : Command → String
  | register _ => "register"
  | update _ => "update subscriptions"
  | unregister _ => "unregister"

/-- The body of a command, with the peer as it is known now. -/
def Command.body (roster : Roster) : Command → Json
  | register d => JsonForm.write (⟨d.withPeer (roster.peer d.peer)⟩ : Register)
  | update body => JsonForm.write body
  | unregister body => JsonForm.write body

/-- What comes of trying a directory server. -/
inductive Answer
  /-- It answers with an error code, zero for none, and perhaps with the peers it knows. -/
  | replied (code : Int) (known : Option (List (Descriptor Peer)))
  /-- It cannot be reached. -/
  | failed (failure : Failure)
  /-- It does not answer in time. -/
  | silent

/-- A command that a server has been given. -/
structure Attempt where
  /-- The command. -/
  command : Command
  /-- The server. -/
  server : Peer
  /-- The servers to try after it. -/
  rest : List Peer
  /-- All servers that were chosen for the command. -/
  selection : List Peer

/-- How far a call is. -/
inductive Progress
  | finished (result : Except Failure Unit)
  | waiting (attempt : Attempt)

/-- The state of a client. -/
structure Client where
  /-- Messages are kept for the local peer while it is away. -/
  persistent : Bool
  /-- How long a server is given to answer, in milliseconds. -/
  timeoutMs : Nat
  /-- The directory servers. -/
  servers : Servers
  /-- The clock. -/
  clock : Clock
  /-- The timestamps of the commands. -/
  stamps : Stamps := {}
  /-- What is known of the directory. -/
  registry : Registry := {}
  /-- The local peer. -/
  self : Option PeerRef := none
  /-- Whether the local peer is registered. -/
  standing : Standing := .unregistered
  /-- The events that are held back, while they are. -/
  held : Option (List Event) := none

namespace Client

/-- A client with the given settings. -/
def ofSettings (s : Settings) (clock : Clock) : Client where
  persistent := s.persistent
  timeoutMs := s.registrationTimeoutMs
  servers := .ofSettings s
  clock := clock

/-! ## Events -/

/-- Handles an event: it is held back while a registration is going on, and applied otherwise. -/
def handle (c : Client) (e : Event) : Client × List Notice :=
  match c.held with
  | some events => ({ c with held := some (events ++ [e]) }, [.eventHeld e.peer e.type])
  | none =>
    let (registry, notices) := c.registry.apply e
    ({ c with registry }, notices)

/-- Handles events one after the other. -/
def handleAll (c : Client) : List Event → Client × List Notice
  | [] => (c, [])
  | e :: es =>
    let (c, notices) := c.handle e
    let (c, notices') := c.handleAll es
    (c, notices ++ notices')

/-- Handles the event that a message brings, and tells whether it brings one. -/
def handleMessage (c : Client) (e : Envelope) : Except Failure (Bool × Client × List Notice) :=
  (Event.ofEnvelope? e).map fun event? ↦
    match event? with
    | some event => (true, c.handle event)
    | none => (false, c, [])

/-- Applies the events that were held back, and holds back no more. -/
def release (c : Client) : Client × List Notice :=
  let events := c.held.getD []
  let (registry, notices) := c.registry.applyAll events
  ({ c with registry, held := none }, notices ++ [.heldEventsApplied events.length])

/-! ## Calls -/

/-- Takes a timestamp for a command. -/
def stamp (c : Client) : Option Instant × Client :=
  let (now, clock) := c.clock.read
  let (timestamp, stamps) := c.stamps.take now
  (timestamp, { c with clock, stamps })

/-- Chooses the servers to try at a time, with a seed for a random order. -/
def select (c : Client) (now seed : Nat) : List Peer × Client :=
  let (selection, servers) := c.servers.select now seed
  (selection, { c with servers })

/-- Chooses the servers that were chosen last. -/
def reselect (c : Client) (now seed : Nat) : List Peer × Client :=
  let (selection, servers) := c.servers.reselect now seed
  (selection, { c with servers })

/-- Ends a registration: the events that were held back are applied. -/
def endRegistration (c : Client) (result : Except Failure Unit) :
    Client × List Notice × Progress :=
  let (c, notices) := c.release
  let standing := match result with
    | .ok _ => .registered
    | .error _ => .unregistered
  ({ c with standing }, notices, .finished result)

/-- Tries the next server, or gives up when there is none. -/
def tryNext (c : Client) (command : Command) (selection : List Peer) :
    List Peer → Client × List Notice × Progress
  | server :: rest => (c, [], .waiting ⟨command, server, rest, selection⟩)
  | [] =>
    let tried := Peer.addresses selection
    match command with
    | .register _ => c.endRegistration (.error (.registrationTimeout tried c.timeoutMs))
    | _ => (c, [], .finished (.error (.directoryUnreachable command.operation tried)))

/-- The local peer, if it is registered. -/
def registeredSelf? (c : Client) : Option PeerRef :=
  if c.standing = .registered then c.self else none

/-- Starts a registration. -/
def beginRegister (c : Client) (self : PeerRef) (ss : List Subscription) (now seed : Nat) :
    Client × List Notice × Progress :=
  let (timestamp, c) := stamp { c with held := some [], standing := .registering }
  if timestamp = none then (c, [], .finished (.error .endOfTime))
  else
    let d : Descriptor PeerRef :=
      { peer := self, subscriptions := ss, persistent := c.persistent, timestamp }
    let (selection, c) := { c with registry := c.registry.restart d, self := self }.select now seed
    let (c, notices, progress) := c.tryNext (.register d) selection selection
    (c, .registering self.id selection :: notices, progress)

/-- Starts to replace the subscriptions of the local peer. -/
def beginUpdate (c : Client) (self : PeerRef) (ss : List Subscription) (now seed : Nat) :
    Client × List Notice × Progress :=
  let (timestamp, c) := c.stamp
  if timestamp = none then (c, [], .finished (.error .endOfTime))
  else
    let registry := c.registry.replaceInterests self.id ss timestamp
    let (selection, c) := { c with registry }.select now seed
    c.tryNext (.update ⟨self.id, ss, timestamp⟩) selection selection

/-- Starts to leave. -/
def beginUnregister (c : Client) (self : PeerRef) (now seed : Nat) :
    Client × List Notice × Progress :=
  let endPoint := (c.registry.roster.contact self).endPoint
  let (timestamp, c) := c.stamp
  if timestamp = none then (c, [], .finished (.error .endOfTime))
  else
    let (selection, c) := c.reselect now seed
    c.tryNext (.unregister ⟨self.id, some endPoint, timestamp⟩) selection selection

/-- Starts a call. -/
def begin (c : Client) (call : Call) (now seed : Nat) : Client × List Notice × Progress :=
  match call with
  | .register self ss => c.beginRegister self ss now seed
  | .update ss =>
    match c.registeredSelf? with
    | some self => c.beginUpdate self ss now seed
    | none => (c, [], .finished (.error .notRegistered))
  | .unregister =>
    match c.registeredSelf? with
    | some self => c.beginUnregister self now seed
    | none => (c, [], .finished (.error .notRegistered))

/-- The failure of a server that does not answer in time. -/
def noResponse (c : Client) (server : PeerId) : Failure :=
  .transport ("no response from " ++ server.text ++ " after " ++ Span.text c.timeoutMs)

/-- A server did not carry out a command: the next one is tried. -/
def fallOver (c : Client) (a : Attempt) (now : Nat) (notice : Notice) :
    Client × List Notice × Progress :=
  let (c, notices, progress) :=
    tryNext { c with servers := c.servers.markFaulty now a.server.id } a.command a.selection a.rest
  (c, notice :: notices, progress)

/-- A server took the registration. -/
def enroll (c : Client) (self : PeerId) (server : PeerId) (known : List (Descriptor Peer)) :
    Client × List Notice × Progress :=
  let (registry, learned) := c.registry.learnAll known
  let c := { c with registry, servers := c.servers.clearFaulty server }
  let (c, notices, progress) := c.endRegistration (.ok ())
  (c, learned ++ .registered self server registry.members.size :: notices, progress)

/-- Goes on with a registration. -/
def resumeRegister (c : Client) (a : Attempt) (self : PeerId) (answer : Answer) (now : Nat) :
    Client × List Notice × Progress :=
  let server := a.server.id
  match answer with
  | .replied 0 (some known) => c.enroll self server known
  | .replied 0 none => c.fallOver a now (.registrationRefused server .noAnswer)
  | .replied code _ => c.fallOver a now (.registrationRefused server (.code code))
  | .failed failure => c.fallOver a now (.registrationFailed server failure)
  | .silent => c.fallOver a now (.registrationFailed server (c.noResponse server))

/-- Goes on with any other call, whose success leaves the given standing. -/
def resumeOther (c : Client) (a : Attempt) (standing : Standing) (answer : Answer) (now : Nat) :
    Client × List Notice × Progress :=
  let server := a.server.id
  let failed (reason : Except Failure Int) : Client × List Notice × Progress :=
    c.fallOver a now (.commandFailed a.command.operation server reason)
  match answer with
  | .replied 0 _ =>
    ({ c with standing, servers := c.servers.clearFaulty server }, [], .finished (.ok ()))
  | .replied code _ => failed (.ok code)
  | .failed failure => failed (.error failure)
  | .silent => failed (.error (c.noResponse server))

/-- Goes on with a call after a server was tried. -/
def resume (c : Client) (a : Attempt) (answer : Answer) (now : Nat) :
    Client × List Notice × Progress :=
  match a.command with
  | .register d => c.resumeRegister a d.peer.id answer now
  | .update _ => c.resumeOther a c.standing answer now
  | .unregister _ => c.resumeOther a .unregistered answer now

/-! ## A call comes to an end -/

theorem rest_lt_of_tryNext {c c' : Client} {command : Command} {selection rest : List Peer}
    {notices : List Notice} {a : Attempt}
    (h : c.tryNext command selection rest = (c', notices, .waiting a)) :
    a.rest.length < rest.length := by
  unfold tryNext at h
  split at h
  · obtain ⟨-, -, h⟩ := by simpa using h
    subst h
    simp
  · split at h
    · simp [endRegistration] at h
    · simp at h

theorem rest_lt_of_fallOver {c c' : Client} {a a' : Attempt} {now : Nat} {notice : Notice}
    {notices : List Notice} (h : c.fallOver a now notice = (c', notices, .waiting a')) :
    a'.rest.length < a.rest.length := by
  simp only [fallOver, Prod.mk.injEq] at h
  exact rest_lt_of_tryNext (Prod.ext rfl (Prod.ext rfl h.2.2))

/-- Each time a call goes on, there are fewer servers left to try. -/
theorem rest_lt_of_resume {c c' : Client} {a a' : Attempt} {answer : Answer} {now : Nat}
    {notices : List Notice} (h : c.resume a answer now = (c', notices, .waiting a')) :
    a'.rest.length < a.rest.length := by
  unfold resume at h
  split at h
  · unfold resumeRegister at h
    split at h
    · simp [enroll, endRegistration] at h
    all_goals exact rest_lt_of_fallOver h
  all_goals
    unfold resumeOther at h
    split at h
    · simp at h
    all_goals exact rest_lt_of_fallOver h

end Client

end ServiceBus.Directory
