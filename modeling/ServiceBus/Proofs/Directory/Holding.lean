import ServiceBus.Proofs.Directory.Registration

/-!
# When events are held back

A client holds events back from the beginning of a registration to its end.  Whether it does is read
off `Client.held`; its standing tells less, for it may be unregistered with or without a
registration going on.  But a client that is registered holds nothing back, in every situation that
it can get into (`Situation.held_of_registered`).

Several events that come in one after the other are applied as they come, or all of them are held
back.
-/

set_option autoImplicit false

namespace ServiceBus.Directory

namespace Client

/-- A client that is registered holds nothing back. -/
def IsOpen (c : Client) : Prop := c.standing = .registered → c.held = none

theorem isOpen_handle {c : Client} (h : c.IsOpen) (e : Event) : (c.handle e).1.IsOpen := by
  intro hstanding
  rw [handle] at hstanding ⊢
  cases hheld : c.held with
  | none => rfl
  | some events =>
    rw [hheld] at hstanding
    rw [h hstanding] at hheld
    cases hheld

theorem isOpen_endRegistration (c : Client) (result : Except Failure Unit) :
    (c.endRegistration result).1.IsOpen := fun _ ↦ rfl

theorem isOpen_tryNext {c : Client} (h : c.IsOpen) (command : Command)
    (selection rest : List Peer) : (c.tryNext command selection rest).1.IsOpen := by
  cases rest with
  | cons server rest => exact h
  | nil =>
    cases command with
    | register d => exact isOpen_endRegistration c _
    | update body => exact h
    | unregister body => exact h

theorem standing_of_registeredSelf? {c : Client} {self : PeerRef}
    (h : c.registeredSelf? = some self) : c.standing = .registered := by
  by_contra hnot
  rw [registeredSelf?, if_neg hnot] at h
  cases h

/-- To try servers for an update leaves the client as it is. -/
theorem tryNext_update (c : Client) (body : UpdateSubscriptions) (selection rest : List Peer) :
    (c.tryNext (.update body) selection rest).1 = c := by
  cases rest <;> rfl

theorem held_beginUpdate (c : Client) (self : PeerRef) (ss : List Subscription)
    (now seed : Nat) : (c.beginUpdate self ss now seed).1.held = c.held := by
  rw [beginUpdate]
  dsimp only
  split
  · rfl
  · rw [tryNext_update]
    rfl

theorem isOpen_beginRegister (c : Client) (self : PeerRef) (ss : List Subscription)
    (now seed : Nat) : (c.beginRegister self ss now seed).1.IsOpen := by
  by_cases hstamp : c.stamp.1 = none
  · rw [beginRegister]
    dsimp only
    rw [if_pos (show (stamp { c with held := some [], standing := .registering }).1 = none
      from hstamp)]
    intro hstanding
    cases hstanding
  · rw [beginRegister_eq hstamp]
    exact isOpen_tryNext (fun hstanding ↦ by cases hstanding) _ _ _

theorem isOpen_begin {c : Client} (h : c.IsOpen) (call : Call) (now seed : Nat) :
    (c.begin call now seed).1.IsOpen := by
  cases call with
  | register self ss => exact isOpen_beginRegister c self ss now seed
  | update ss =>
    rw [begin]
    cases c.registeredSelf? with
    | none => exact h
    | some self =>
      dsimp only
      rw [beginUpdate]
      dsimp only
      split
      · exact h
      · refine isOpen_tryNext ?_ _ _ _
        exact h
  | unregister =>
    rw [begin]
    cases c.registeredSelf? with
    | none => exact h
    | some self =>
      dsimp only
      rw [beginUnregister]
      dsimp only
      split
      · exact h
      · refine isOpen_tryNext ?_ _ _ _
        exact h

theorem isOpen_fallOver {c : Client} (h : c.IsOpen) (a : Attempt) (now : Nat) (notice : Notice) :
    (c.fallOver a now notice).1.IsOpen := by
  have hmarked : IsOpen { c with servers := c.servers.markFaulty now a.server.id } := h
  exact isOpen_tryNext hmarked a.command a.selection a.rest

theorem isOpen_resumeOther {c : Client} (h : c.IsOpen) (a : Attempt) {standing : Standing}
    (hstanding : standing = .registered → c.held = none) (answer : Answer) (now : Nat) :
    (c.resumeOther a standing answer now).1.IsOpen := by
  unfold resumeOther
  split
  · exact hstanding
  all_goals exact isOpen_fallOver h a now _

theorem isOpen_resumeRegister {c : Client} (h : c.IsOpen) (a : Attempt) (self : PeerId)
    (answer : Answer) (now : Nat) : (c.resumeRegister a self answer now).1.IsOpen := by
  cases htaken : answer.taken? with
  | some known =>
    rw [resumeRegister_of_taken htaken]
    exact fun _ ↦ rfl
  | none =>
    obtain ⟨notice, hfall⟩ := resumeRegister_of_not_taken htaken c a self now
    rw [hfall]
    exact isOpen_fallOver h a now notice

theorem isOpen_resume {c : Client} (h : c.IsOpen) (a : Attempt) (answer : Answer) (now : Nat) :
    (c.resume a answer now).1.IsOpen := by
  unfold resume
  split
  · exact isOpen_resumeRegister h a _ answer now
  · exact isOpen_resumeOther h a h answer now
  · exact isOpen_resumeOther h a (fun hstanding ↦ by cases hstanding) answer now

end Client

namespace Situation

theorem isOpen_step {s : Situation} (h : s.client.IsOpen) (act : Act) :
    (s.step act).client.IsOpen := by
  cases act with
  | call call now seed =>
    rw [step, client_goOn]
    exact Client.isOpen_begin h call now seed
  | answer place answer now =>
    rw [step]
    split
    · rw [client_goOn]
      exact Client.isOpen_resume h _ answer now
    · exact h
  | event e => exact Client.isOpen_handle h e

theorem isOpen_run {s : Situation} (h : s.client.IsOpen) (acts : List Act) :
    (s.run acts).client.IsOpen := by
  induction acts generalizing s with
  | nil => exact h
  | cons act acts ih => exact ih (isOpen_step h act)

/-- **A client that is registered holds nothing back**, whatever has happened to it. -/
theorem held_of_registered {settings : Settings} {clock : Clock} {roster : Roster}
    {acts : List Act}
    (h : ((start settings clock roster).run acts).client.standing = .registered) :
    ((start settings clock roster).run acts).client.held = none :=
  isOpen_run (fun _ ↦ rfl) acts h

/-! ## An update -/

/-- An update replaces the interests of the local peer before any server is asked. -/
theorem registry_update {s : Situation} {self : PeerRef} {t : Instant}
    (hself : s.client.registeredSelf? = some self) (hstamp : s.client.stamp.1 = some t)
    (ss : List Subscription) (now seed : Nat) :
    (s.step (.call (.update ss) now seed)).client.registry =
      s.client.registry.replaceInterests self.id ss (some t) := by
  rw [registry_step, deeds, Client.deedsOfCall, hself, hstamp]
  rfl

theorem held_update {s : Situation} {self : PeerRef}
    (hself : s.client.registeredSelf? = some self) (ss : List Subscription) (now seed : Nat) :
    (s.step (.call (.update ss) now seed)).client.held = s.client.held := by
  rw [step, client_goOn, Client.begin, hself]
  exact Client.held_beginUpdate ..

/-! ## Several events -/

theorem run_append (s : Situation) (acts acts' : List Act) :
    s.run (acts ++ acts') = (s.run acts).run acts' :=
  List.foldl_append

/-- As long as nothing is held back, events are applied as they come. -/
theorem registry_run_events {s : Situation} (h : s.client.held = none) (es : List Event) :
    (s.run (es.map .event)).client.registry = (s.client.registry.applyAll es).1 := by
  induction es generalizing s with
  | nil => rfl
  | cons e es ih =>
    have hstep : (s.step (.event e)).client.held = none ∧
        (s.step (.event e)).client.registry = (s.client.registry.apply e).1 := by
      rw [step, Client.handle, h]
      exact ⟨rfl, rfl⟩
    refine (ih hstep.1).trans ?_
    rw [hstep.2]
    rfl

/-- While a registration is going on, events change nothing that is known. -/
theorem registry_run_events_of_held {s : Situation} {held : List Event}
    (h : s.client.held = some held) (es : List Event) :
    (s.run (es.map .event)).client.registry = s.client.registry := by
  induction es generalizing s held with
  | nil => rfl
  | cons e es ih =>
    have hstep : (s.step (.event e)).client.held = some (held ++ [e]) ∧
        (s.step (.event e)).client.registry = s.client.registry := by
      rw [step, Client.handle, h]
      exact ⟨rfl, rfl⟩
    exact (ih hstep.1).trans hstep.2

/-! ## A client that registers -/

/-- A client with one directory server and an instance of its own peer. -/
def withServer : Situation :=
  start { directoryEndPoints := ["tcp://directory:1"] }
    ⟨⟨⟨2024, 3, 1⟩, 12, 0, 0, 0, Registration.valid_noon⟩, []⟩
    ⟨#[{ endPoint := "tcp://Abc.Self.0:1" }]⟩

/-- The local peer registers with its subscriptions, and the server knows nobody. -/
def registers (ss : List Subscription) : List Act :=
  [.call (.register ⟨⟨"Abc.Self.0"⟩, 0⟩ ss) 0 0, .answer 0 (.replied 0 (some [])) 0]

end Situation

end ServiceBus.Directory
