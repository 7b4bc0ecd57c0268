import ServiceBus.Directory.Client
import ServiceBus.Proofs.Directory.Deeds

/-!
# The runs of a client

A client is in a `Situation`: it has a state, and some of its calls wait for the answer of a server.
An `Act` of its surroundings starts a call, answers one that waits, or brings an event; acts come in
any order, and a run is a list of them.

For each act `Situation.deeds` says what it does to the registry, and `registry_run` that a run does
to the registry what its deeds do.  So whatever deeds preserve holds in every situation that a
client can get into, and `follows_run` is the first instance: the registry follows the chronicle of
the run.
-/

set_option autoImplicit false

namespace ServiceBus.Directory

namespace Deed

theorem performAll_append (r : Registry) (deeds deeds' : List Deed) :
    performAll r (deeds ++ deeds') = performAll (performAll r deeds) deeds' :=
  List.foldl_append

theorem performAll_learn (r : Registry) (ds : List (Descriptor Peer)) :
    performAll r (ds.map learn) = (r.learnAll ds).1 := by
  induction ds generalizing r with
  | nil => rfl
  | cons d ds ih => exact ih (r.learn d true).1

theorem performAll_apply (r : Registry) (es : List Event) :
    performAll r (es.map apply) = (r.applyAll es).1 := by
  induction es generalizing r with
  | nil => rfl
  | cons e es ih => exact ih (r.apply e).1

end Deed

/-- The peers that a server knows, if its answer takes a registration. -/
def Answer.taken? : Answer → Option (List (Descriptor Peer))
  | .replied 0 (some known) => some known
  | _ => none

namespace Client

/-! ## What a client does to its registry -/

/-- The deeds that are held back. -/
def heldDeeds (c : Client) : List Deed := (c.held.getD []).map .apply

/-- The deeds of handling an event. -/
def deedsOfEvent (c : Client) (e : Event) : List Deed :=
  match c.held with
  | some _ => []
  | none => [.apply e]

/-- What a client tells the directory of its own peer. -/
def ownDescriptor (c : Client) (self : PeerRef) (ss : List Subscription) : Descriptor PeerRef :=
  { peer := self, subscriptions := ss, persistent := c.persistent, timestamp := c.stamp.1 }

/-- The deeds of starting a call. -/
def deedsOfCall (c : Client) : Call → List Deed
  | .register self ss => if c.stamp.1 = none then [] else [.restart (c.ownDescriptor self ss)]
  | .update ss =>
    match c.registeredSelf?, c.stamp.1 with
    | some self, some t => [.replace self.id ss (some t)]
    | _, _ => []
  | .unregister => []

/-- The deeds of going on with a call: those of a registration that is taken, and what was held back
when a registration ends. -/
def deedsOfAnswer (c : Client) (a : Attempt) (answer : Answer) : List Deed :=
  match a.command, answer.taken? with
  | .register _, some known => known.map .learn ++ c.heldDeeds
  | .register _, none => if a.rest = [] then c.heldDeeds else []
  | _, _ => []

theorem registry_handle (c : Client) (e : Event) :
    (c.handle e).1.registry = Deed.performAll c.registry (c.deedsOfEvent e) := by
  rw [handle, deedsOfEvent]
  cases c.held <;> rfl

theorem registry_endRegistration (c : Client) (result : Except Failure Unit) :
    (c.endRegistration result).1.registry = Deed.performAll c.registry c.heldDeeds :=
  (Deed.performAll_apply c.registry (c.held.getD [])).symm

/-- To give up ends a registration, and changes nothing for any other call. -/
theorem registry_tryNext (c : Client) (command : Command) (selection rest : List Peer) :
    (c.tryNext command selection rest).1.registry =
      match command, rest with
      | .register _, [] => Deed.performAll c.registry c.heldDeeds
      | _, _ => c.registry := by
  cases rest with
  | cons server rest => cases command <;> rfl
  | nil =>
    cases command with
    | register d => exact registry_endRegistration c _
    | update body => rfl
    | unregister body => rfl

/-- A client whose registration has set out: all that it knows is its own peer, and from now on
events are held back. -/
def settingOut (c : Client) (self : PeerRef) (ss : List Subscription) (now seed : Nat) : Client :=
  { c.stamp.2 with
    servers := (c.servers.select now seed).2
    registry := c.registry.restart (c.ownDescriptor self ss)
    self := some self
    standing := .registering
    held := some [] }

/-- A registration that gets a timestamp tries the first server. -/
theorem beginRegister_eq {c : Client} (h : c.stamp.1 ≠ none) (self : PeerRef)
    (ss : List Subscription) (now seed : Nat) :
    c.beginRegister self ss now seed =
      let selection := c.servers.order now seed
      let (c', notices, progress) := (c.settingOut self ss now seed).tryNext
        (.register (c.ownDescriptor self ss)) selection selection
      (c', .registering self.id selection :: notices, progress) := by
  have hstamp : (stamp { c with held := some [], standing := .registering }).1 ≠ none := h
  rw [beginRegister]
  dsimp only
  rw [if_neg hstamp]
  rfl

theorem registry_beginRegister (c : Client) (self : PeerRef) (ss : List Subscription)
    (now seed : Nat) :
    (c.beginRegister self ss now seed).1.registry =
      Deed.performAll c.registry (c.deedsOfCall (.register self ss)) := by
  rw [deedsOfCall]
  split
  · next h =>
    have hstamp : (stamp { c with held := some [], standing := .registering }).1 = none := h
    rw [beginRegister]
    dsimp only
    rw [if_pos hstamp]
    rfl
  · next h =>
    rw [beginRegister_eq h]
    dsimp only
    rw [registry_tryNext]
    cases c.servers.order now seed <;> rfl

theorem registry_beginUpdate (c : Client) (self : PeerRef) (ss : List Subscription)
    (now seed : Nat) :
    (c.beginUpdate self ss now seed).1.registry =
      Deed.performAll c.registry
        (c.stamp.1.map fun t ↦ Deed.replace self.id ss (some t)).toList := by
  rw [beginUpdate]
  dsimp only
  cases h : c.stamp.1 with
  | none => rfl
  | some t =>
    rw [if_neg (by simp), registry_tryNext]
    rfl

theorem registry_beginUnregister (c : Client) (self : PeerRef) (now seed : Nat) :
    (c.beginUnregister self now seed).1.registry = c.registry := by
  rw [beginUnregister]
  dsimp only
  split
  · rfl
  · exact registry_tryNext ..

theorem registry_begin (c : Client) (call : Call) (now seed : Nat) :
    (c.begin call now seed).1.registry = Deed.performAll c.registry (c.deedsOfCall call) := by
  cases call with
  | register self ss => exact registry_beginRegister c self ss now seed
  | update ss =>
    rw [begin, deedsOfCall]
    cases c.registeredSelf? with
    | none => rfl
    | some self =>
      dsimp only
      rw [registry_beginUpdate]
      cases c.stamp.1 <;> rfl
  | unregister =>
    rw [begin]
    cases c.registeredSelf? with
    | none => rfl
    | some self => exact registry_beginUnregister c self now seed

theorem registry_fallOver (c : Client) (a : Attempt) (now : Nat) (notice : Notice) :
    (c.fallOver a now notice).1.registry =
      match a.command, a.rest with
      | .register _, [] => Deed.performAll c.registry c.heldDeeds
      | _, _ => c.registry :=
  registry_tryNext { c with servers := c.servers.markFaulty now a.server.id } a.command a.selection
    a.rest

theorem resumeRegister_of_taken {answer : Answer} {known : List (Descriptor Peer)}
    (h : answer.taken? = some known) (c : Client) (a : Attempt) (self : PeerId) (now : Nat) :
    c.resumeRegister a self answer now = c.enroll self a.server.id known := by
  unfold Answer.taken? at h
  split at h
  · obtain rfl := Option.some.inj h
    rfl
  · cases h

/-- An answer that does not take a registration is passed over, with one notice or another. -/
theorem resumeRegister_of_not_taken {answer : Answer} (h : answer.taken? = none) (c : Client)
    (a : Attempt) (self : PeerId) (now : Nat) :
    ∃ notice, c.resumeRegister a self answer now = c.fallOver a now notice := by
  unfold resumeRegister
  split
  · cases h
  all_goals exact ⟨_, rfl⟩

/-- Any other call that goes on leaves the registry as it is. -/
theorem registry_resumeOther (c : Client) (a : Attempt) (ha : ∀ d, a.command ≠ .register d)
    (standing : Standing) (answer : Answer) (now : Nat) :
    (c.resumeOther a standing answer now).1.registry = c.registry := by
  have hfall : ∀ notice, (c.fallOver a now notice).1.registry = c.registry := by
    intro notice
    rw [registry_fallOver]
    split
    · next d hd _ => exact absurd hd (ha d)
    · rfl
  unfold resumeOther
  split
  · rfl
  all_goals exact hfall _

theorem registry_resume (c : Client) (a : Attempt) (answer : Answer) (now : Nat) :
    (c.resume a answer now).1.registry = Deed.performAll c.registry (c.deedsOfAnswer a answer) := by
  unfold resume deedsOfAnswer
  cases ha : a.command with
  | register d =>
    cases htaken : answer.taken? with
    | some known =>
      dsimp only
      rw [resumeRegister_of_taken htaken, Deed.performAll_append, Deed.performAll_learn]
      exact registry_endRegistration _ (.ok ())
    | none =>
      obtain ⟨notice, hfall⟩ := resumeRegister_of_not_taken htaken c a d.peer.id now
      dsimp only
      rw [hfall, registry_fallOver, ha]
      cases a.rest <;> rfl
  | update body =>
    exact registry_resumeOther c a (fun d hd ↦ by simp [ha] at hd) c.standing answer now
  | unregister body =>
    exact registry_resumeOther c a (fun d hd ↦ by simp [ha] at hd) .unregistered answer now

end Client

/-! ## Situations and runs -/

/-- A client, and its calls that wait for the answer of a server. -/
structure Situation where
  /-- The client. -/
  client : Client
  /-- The calls that wait, in the order in which they came to wait. -/
  waiting : List Attempt := []

/-- What the surroundings of a client do. -/
inductive Act
  /-- A call is made, at a time and with a seed for a random order of the servers. -/
  | call (call : Call) (now seed : Nat)
  /-- A call that waits gets an answer. -/
  | answer (place : Nat) (answer : Answer) (now : Nat)
  /-- An event comes in. -/
  | event (e : Event)

namespace Situation

/-- A client that was just made, when some instances of peers exist. -/
def start (settings : Settings) (clock : Clock) (roster : Roster) : Situation :=
  ⟨{ Client.ofSettings settings clock with registry := { roster } }, []⟩

/-- The situation after a call was started or has gone on, given the other calls that wait. -/
def goOn (others : List Attempt) (outcome : Client × List Notice × Progress) : Situation :=
  match outcome.2.2 with
  | .finished _ => ⟨outcome.1, others⟩
  | .waiting a => ⟨outcome.1, others ++ [a]⟩

/-- The situation after an act.  An answer that nobody waits for changes nothing. -/
def step (s : Situation) : Act → Situation
  | .call call now seed => goOn s.waiting (s.client.begin call now seed)
  | .answer place answer now =>
    match s.waiting[place]? with
    | some a => goOn (s.waiting.eraseIdx place) (s.client.resume a answer now)
    | none => s
  | .event e => ⟨(s.client.handle e).1, s.waiting⟩

/-- The situation after a run. -/
def run (s : Situation) (acts : List Act) : Situation := acts.foldl step s

/-- What an act does to the registry. -/
def deeds (s : Situation) : Act → List Deed
  | .call call _ _ => s.client.deedsOfCall call
  | .answer place answer _ => (s.waiting[place]?).elim [] fun a ↦ s.client.deedsOfAnswer a answer
  | .event e => s.client.deedsOfEvent e

/-- What a run does to the registry. -/
def deedsOfRun : Situation → List Act → List Deed
  | _, [] => []
  | s, act :: acts => s.deeds act ++ (s.step act).deedsOfRun acts

/-- What was told of each peer in a run. -/
def chronicle (s : Situation) (acts : List Act) : Chronicle :=
  Deed.recordAll s.client.registry .empty (s.deedsOfRun acts)

@[simp]
theorem client_goOn (others : List Attempt) (outcome : Client × List Notice × Progress) :
    (goOn others outcome).client = outcome.1 := by
  unfold goOn
  split <;> rfl

theorem registry_step (s : Situation) (act : Act) :
    (s.step act).client.registry = Deed.performAll s.client.registry (s.deeds act) := by
  cases act with
  | call call now seed =>
    rw [step, client_goOn]
    exact Client.registry_begin s.client call now seed
  | answer place answer now =>
    rw [step, deeds]
    cases s.waiting[place]? with
    | none => rfl
    | some a =>
      dsimp only
      rw [client_goOn]
      exact Client.registry_resume s.client a answer now
  | event e => exact Client.registry_handle s.client e

/-- **A run does to the registry what its deeds do.** -/
theorem registry_run (s : Situation) (acts : List Act) :
    (s.run acts).client.registry = Deed.performAll s.client.registry (s.deedsOfRun acts) := by
  induction acts generalizing s with
  | nil => rfl
  | cons act acts ih =>
    rw [deedsOfRun, Deed.performAll_append, ← registry_step]
    exact ih (s.step act)

/-- The registry of a client follows the chronicle of its run. -/
theorem follows_run (settings : Settings) (clock : Clock) (roster : Roster) (acts : List Act) :
    ((start settings clock roster).run acts).client.registry.Follows
      ((start settings clock roster).chronicle acts) := by
  rw [registry_run]
  exact (Registry.Follows.nobody roster).performAll _

end Situation

end ServiceBus.Directory
