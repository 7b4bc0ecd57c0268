import ServiceBus.Proofs.Directory.Runs

/-!
# The commands of calls

A call issues at most one command (`Client.command?`), and the command is tried on the servers that
were chosen for it.  Whatever the call is, it goes on in the same way: to begin is to try the first
server (`Client.begin_of_command`), and an answer takes the command or the next server is tried
(`Client.resume_of_taken`, `Client.resume_of_refused`).

`Situation.course` tells for a run how far the calls get, one act after the other.  What was tried,
and what has returned, is read off it.
-/

set_option autoImplicit false

namespace ServiceBus.Directory

namespace Command

/-- When the command was issued. -/
def timestamp : Command → Option Instant
  | register d => d.timestamp
  | update body => body.timestamp
  | unregister body => body.timestamp

/-- The answer takes the command.  A registration must be told the peers that are known. -/
def isTaken : Command → Answer → Bool
  | register _, answer => answer.taken?.isSome
  | _, .replied 0 _ => true
  | _, _ => false

/-- Anything but a registration is taken by an answer without an error code. -/
theorem isTaken_iff {command : Command} (h : ∀ d, command ≠ register d) {answer : Answer} :
    command.isTaken answer = true ↔ ∃ known, answer = .replied 0 known := by
  unfold isTaken
  split
  · next d => exact absurd rfl (h d)
  · next known _ => exact iff_of_true rfl ⟨known, rfl⟩
  · next hanswer =>
    exact iff_of_false Bool.false_ne_true fun ⟨known, hknown⟩ ↦ hanswer known hknown

/-- The failure when no server of a selection has taken the command. -/
def unmet (command : Command) (timeoutMs : Nat) (selection : List Peer) : Failure :=
  match command with
  | register _ => .registrationTimeout (Peer.addresses selection) timeoutMs
  | _ => .directoryUnreachable command.operation (Peer.addresses selection)

/-- The standing that the end of the command sets, if it sets one. -/
def sets? : Command → Except Failure Unit → Option Standing
  | register _, .ok _ => some .registered
  | register _, .error _ => some .unregistered
  | unregister _, .ok _ => some .unregistered
  | _, _ => none

end Command

/-- The standing while a call is going on, given that before. -/
def Call.standing : Call → Standing → Standing
  | register _ _, _ => .registering
  | _, before => before

namespace Progress

/-- What has been tried and is waited for. -/
def attempt? : Progress → Option Attempt
  | waiting a => some a
  | finished _ => none

/-- What the call has returned. -/
def result? : Progress → Option (Except Failure Unit)
  | waiting _ => none
  | finished result => some result

end Progress

namespace Client

/-! ## How a call begins -/

/-- The command that a call issues.  There must be a timestamp for it, and for anything but a
registration the client must be registered. -/
def command? (c : Client) : Call → Option Command
  | .register self ss => c.stamp.1.map fun _ ↦ .register (c.ownDescriptor self ss)
  | .update ss => c.registeredSelf?.bind fun self ↦
    c.stamp.1.map fun t ↦ .update ⟨self.id, ss, some t⟩
  | .unregister => c.registeredSelf?.bind fun self ↦
    c.stamp.1.map fun t ↦
      .unregister ⟨self.id, some (c.registry.roster.contact self).endPoint, some t⟩

/-- The servers that are chosen for a call, in the order in which they are to be tried. -/
def chosen (c : Client) (call : Call) (now seed : Nat) : List Peer :=
  match call with
  | .unregister => (c.servers.reselect now seed).1
  | _ => c.servers.order now seed

/-- A client that has done its own part of a call, and is about to try the first server. -/
def poised (c : Client) (call : Call) (now seed : Nat) : Client :=
  match call with
  | .register self ss => c.settingOut self ss now seed
  | .update ss =>
    { c.stamp.2 with
      servers := (c.servers.select now seed).2
      registry := Deed.performAll c.registry (c.deedsOfCall (.update ss)) }
  | .unregister => { c.stamp.2 with servers := (c.servers.reselect now seed).2 }

@[simp]
theorem standing_poised (c : Client) (call : Call) (now seed : Nat) :
    (c.poised call now seed).standing = call.standing c.standing := by
  cases call <;> rfl

@[simp]
theorem timeoutMs_poised (c : Client) (call : Call) (now seed : Nat) :
    (c.poised call now seed).timeoutMs = c.timeoutMs := by
  cases call <;> rfl

/-- To choose servers changes no fault. -/
@[simp]
theorem faultySince_poised (c : Client) (call : Call) (now seed : Nat) :
    (c.poised call now seed).servers.faultySince = c.servers.faultySince := by
  cases call with
  | register self ss => rfl
  | update ss => rfl
  | unregister =>
    show ((c.servers.reselect now seed).2).faultySince = _
    unfold Servers.reselect
    split <;> rfl

/-- **A call that issues a command tries the first of the servers chosen for it.** -/
theorem begin_of_command {c : Client} {call : Call} {command : Command}
    (h : c.command? call = some command) (now seed : Nat) :
    ∃ notices, c.begin call now seed =
      let selection := c.chosen call now seed
      let (c', notices', progress) := (c.poised call now seed).tryNext command selection selection
      (c', notices ++ notices', progress) := by
  cases call with
  | register self ss =>
    obtain ⟨t, hstamp, rfl⟩ := Option.map_eq_some_iff.mp h
    refine ⟨[.registering self.id (c.servers.order now seed)], ?_⟩
    rw [begin, beginRegister_eq (hstamp ▸ Option.some_ne_none t)]
    rfl
  | update ss =>
    obtain ⟨self, hself, h⟩ := Option.bind_eq_some_iff.mp h
    obtain ⟨t, hstamp, rfl⟩ := Option.map_eq_some_iff.mp h
    refine ⟨[], ?_⟩
    rw [begin, poised, deedsOfCall, hself, hstamp]
    dsimp only
    rw [beginUpdate]
    dsimp only
    rw [if_neg (hstamp ▸ Option.some_ne_none t), hstamp]
    rfl
  | unregister =>
    obtain ⟨self, hself, h⟩ := Option.bind_eq_some_iff.mp h
    obtain ⟨t, hstamp, rfl⟩ := Option.map_eq_some_iff.mp h
    refine ⟨[], ?_⟩
    rw [begin, hself]
    dsimp only
    rw [beginUnregister]
    dsimp only
    rw [if_neg (hstamp ▸ Option.some_ne_none t), hstamp]
    rfl

/-- A call that issues no command returns at once, and no server is chosen. -/
theorem begin_of_no_command {c : Client} {call : Call} (h : c.command? call = none)
    (now seed : Nat) :
    ∃ failure, (c.begin call now seed).2.2 = .finished (.error failure) ∧
      (failure = .notRegistered ∨ failure = .endOfTime) ∧
      (c.begin call now seed).1.servers = c.servers ∧
      (c.begin call now seed).1.standing = call.standing c.standing := by
  cases call with
  | register self ss =>
    have hstamp : (stamp { c with held := some [], standing := .registering }).1 = none :=
      Option.map_eq_none_iff.mp h
    rw [begin, beginRegister]
    dsimp only
    rw [if_pos hstamp]
    exact ⟨_, rfl, Or.inr rfl, rfl, rfl⟩
  | update ss =>
    rw [begin]
    cases hself : c.registeredSelf? with
    | none => exact ⟨_, rfl, Or.inl rfl, rfl, rfl⟩
    | some self =>
      rw [command?, hself, Option.bind_some] at h
      dsimp only
      rw [beginUpdate]
      dsimp only
      rw [if_pos (Option.map_eq_none_iff.mp h)]
      exact ⟨_, rfl, Or.inr rfl, rfl, rfl⟩
  | unregister =>
    rw [begin]
    cases hself : c.registeredSelf? with
    | none => exact ⟨_, rfl, Or.inl rfl, rfl, rfl⟩
    | some self =>
      rw [command?, hself, Option.bind_some] at h
      dsimp only
      rw [beginUnregister]
      dsimp only
      rw [if_pos (Option.map_eq_none_iff.mp h)]
      exact ⟨_, rfl, Or.inr rfl, rfl, rfl⟩

/-! ## How a call goes on -/

/-- When there is no server left to try, the call has failed. -/
theorem tryNext_nil (c : Client) (command : Command) (selection : List Peer) :
    (c.tryNext command selection []).2.2 =
      .finished (.error (command.unmet c.timeoutMs selection)) := by
  cases command <;> rfl

@[simp]
theorem servers_tryNext (c : Client) (command : Command) (selection rest : List Peer) :
    (c.tryNext command selection rest).1.servers = c.servers := by
  cases rest with
  | cons server rest => rfl
  | nil => cases command <;> rfl

/-- The standing when a server was tried, or none was left. -/
theorem standing_tryNext (c : Client) (command : Command) (selection rest : List Peer) :
    (c.tryNext command selection rest).1.standing =
      (((c.tryNext command selection rest).2.2.result?).bind command.sets?).getD c.standing := by
  cases rest with
  | cons server rest => rfl
  | nil => cases command <;> rfl

theorem resume_of_other {a : Attempt} (ha : ∀ d, a.command ≠ .register d) (c : Client)
    (answer : Answer) (now : Nat) :
    c.resume a answer now =
      c.resumeOther a ((a.command.sets? (.ok ())).getD c.standing) answer now := by
  rw [resume]
  cases hcommand : a.command with
  | register d => exact absurd hcommand (ha d)
  | update body => rfl
  | unregister body => rfl

/-- An answer that takes the command ends the call, and clears the fault of the server. -/
theorem resume_of_taken {c : Client} {a : Attempt} {answer : Answer}
    (h : a.command.isTaken answer = true) (now : Nat) :
    (c.resume a answer now).2.2 = .finished (.ok ()) ∧
      (c.resume a answer now).1.servers = c.servers.clearFaulty a.server.id ∧
      (c.resume a answer now).1.standing = (a.command.sets? (.ok ())).getD c.standing := by
  by_cases hregister : ∃ d, a.command = .register d
  · obtain ⟨d, hd⟩ := hregister
    rw [hd, Command.isTaken] at h
    obtain ⟨known, hknown⟩ := Option.isSome_iff_exists.mp h
    rw [resume, hd]
    dsimp only
    rw [resumeRegister_of_taken hknown]
    exact ⟨rfl, rfl, rfl⟩
  · have ha := not_exists.mp hregister
    obtain ⟨known, rfl⟩ := (Command.isTaken_iff ha).mp h
    rw [resume_of_other ha]
    exact ⟨rfl, rfl, rfl⟩

/-- Any other answer is passed over, with one notice or another. -/
theorem resume_of_refused {c : Client} {a : Attempt} {answer : Answer}
    (h : a.command.isTaken answer = false) (now : Nat) :
    ∃ notice, c.resume a answer now = c.fallOver a now notice := by
  by_cases hregister : ∃ d, a.command = .register d
  · obtain ⟨d, hd⟩ := hregister
    rw [hd, Command.isTaken] at h
    rw [resume, hd]
    exact resumeRegister_of_not_taken (Option.isNone_iff_eq_none.mp (by simpa using h)) c a _ now
  · have ha := not_exists.mp hregister
    rw [← Bool.not_eq_true, Command.isTaken_iff ha] at h
    rw [resume_of_other ha]
    unfold resumeOther
    split
    · next known => exact absurd ⟨known, rfl⟩ h
    all_goals exact ⟨_, rfl⟩

end Client

/-! ## The course of a run -/

/-- A call that has returned, by the command that it had issued. -/
structure Return where
  /-- The command. -/
  command : Command
  /-- What the call returned. -/
  result : Except Failure Unit

namespace Situation

/-- How far an act brings a call that has issued a command. -/
def progress? (s : Situation) : Act → Option (Command × Progress)
  | .call call now seed =>
    (s.client.command? call).map fun command ↦ (command, (s.client.begin call now seed).2.2)
  | .answer place answer now =>
    (s.waiting[place]?).map fun a ↦ (a.command, (s.client.resume a answer now).2.2)
  | .event _ => none

/-- How far the acts of a run bring the calls, one after the other. -/
def course : Situation → List Act → List (Command × Progress)
  | _, [] => []
  | s, act :: acts => (s.progress? act).toList ++ (s.step act).course acts

/-- What is tried in the course of a run, and on which server. -/
def tried (course : List (Command × Progress)) : List (Command × Peer) :=
  course.filterMap fun (_, progress) ↦ progress.attempt?.map fun a ↦ (a.command, a.server)

/-- What returns in the course of a run. -/
def returned (course : List (Command × Progress)) : List Return :=
  course.filterMap fun (command, progress) ↦ progress.result?.map (Return.mk command)

end Situation

end ServiceBus.Directory
