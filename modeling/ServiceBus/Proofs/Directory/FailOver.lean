import Mathlib.Data.List.Nodup
import ServiceBus.Proofs.Directory.Commands
import ServiceBus.Proofs.Directory.Holding

/-!
# From one server to the next

A command is tried on the servers of a selection until one takes it.  `FailsOver` is what comes of
that: which servers are tried, what becomes of their faults, and what the call returns.  It hangs on
nothing but the selection and the answers, in the order in which they come.

`Situation.failsOver_of_run` says it of every call of a client whose other calls have returned.
Events may come in between.  No server is tried twice, for no two servers have the same id
(`Servers.Distinct`).
-/

set_option autoImplicit false

namespace ServiceBus

theorem PeerId.directory_injective {i j : Nat} (h : directory i = directory j) : i = j := by
  have htext : toString i = toString j :=
    (String.append_right_inj directoryStem).mp (congrArg text h)
  rw [Nat.toString_eq_ofList_toDigits, Nat.toString_eq_ofList_toDigits, String.ofList_inj] at htext
  rw [← Nat.ofDigitChars_ten_toDigits (n := i), htext, Nat.ofDigitChars_ten_toDigits]

namespace Directory

/-! ## No server is there twice -/

namespace Servers

/-- No two servers have the same id. -/
structure Distinct (s : Servers) : Prop where
  /-- The servers of the settings. -/
  configured : (s.configured.map Peer.id).Nodup
  /-- The servers that were chosen last. -/
  selected : (s.selected.map Peer.id).Nodup

theorem distinct_ofSettings (settings : Settings) : (ofSettings settings).Distinct where
  configured := by
    refine List.pairwise_iff_getElem.mpr fun i j _ _ hlt heq ↦ ?_
    refine Nat.ne_of_lt hlt (PeerId.directory_injective ?_)
    simpa [ofSettings, Peer.live] using heq
  selected := List.nodup_nil

/-- The servers are tried in one order or another, each once. -/
theorem order_perm (s : Servers) (now seed : Nat) : (s.order now seed).Perm s.configured := by
  have hcandidates : (if s.random then shuffled seed s.configured else s.configured).Perm
      s.configured := by
    split
    · exact shuffled_perm seed s.configured
    · exact .refl _
  rw [order, List.partition_eq_filter_filter]
  refine ((List.mergeSort_perm _ _).append_left _).trans (List.perm_append_comm.trans ?_)
  exact (List.filter_append_perm _ _).trans hcandidates

namespace Distinct

variable {s : Servers}

theorem order (h : s.Distinct) (now seed : Nat) : ((s.order now seed).map Peer.id).Nodup :=
  ((s.order_perm now seed).map Peer.id).nodup_iff.mpr h.configured

theorem select (h : s.Distinct) (now seed : Nat) : (s.select now seed).2.Distinct :=
  ⟨h.configured, h.order now seed⟩

theorem reselect (h : s.Distinct) (now seed : Nat) :
    ((s.reselect now seed).1.map Peer.id).Nodup ∧ (s.reselect now seed).2.Distinct := by
  rw [Servers.reselect]
  split
  · exact ⟨h.order now seed, h.select now seed⟩
  · exact ⟨h.selected, h⟩

end Distinct

end Servers

namespace Client

variable {c : Client}

theorem nodup_chosen (h : c.servers.Distinct) (call : Call) (now seed : Nat) :
    ((c.chosen call now seed).map Peer.id).Nodup := by
  cases call with
  | unregister => exact (h.reselect now seed).1
  | _ => exact h.order now seed

theorem distinct_poised (h : c.servers.Distinct) (call : Call) (now seed : Nat) :
    (c.poised call now seed).servers.Distinct := by
  cases call with
  | unregister => exact (h.reselect now seed).2
  | _ => exact h.select now seed

theorem distinct_begin (h : c.servers.Distinct) (call : Call) (now seed : Nat) :
    (c.begin call now seed).1.servers.Distinct := by
  cases hcommand : c.command? call with
  | none =>
    obtain ⟨_, _, _, hservers, _⟩ := begin_of_no_command hcommand now seed
    rwa [hservers]
  | some command =>
    obtain ⟨notices, hbegin⟩ := begin_of_command hcommand now seed
    rw [hbegin]
    dsimp only
    rw [servers_tryNext]
    exact distinct_poised h call now seed

theorem servers_fallOver (c : Client) (a : Attempt) (now : Nat) (notice : Notice) :
    (c.fallOver a now notice).1.servers = c.servers.markFaulty now a.server.id :=
  servers_tryNext ..

theorem distinct_resume (h : c.servers.Distinct) (a : Attempt) (answer : Answer) (now : Nat) :
    (c.resume a answer now).1.servers.Distinct := by
  cases htaken : a.command.isTaken answer with
  | true =>
    rw [(resume_of_taken htaken now).2.1]
    exact ⟨h.configured, h.selected⟩
  | false =>
    obtain ⟨notice, hfall⟩ := resume_of_refused htaken now
    rw [hfall, servers_fallOver]
    exact ⟨h.configured, h.selected⟩

@[simp]
theorem servers_handle (c : Client) (e : Event) : (c.handle e).1.servers = c.servers := by
  rw [handle]
  cases c.held <;> rfl

@[simp]
theorem timeoutMs_handle (c : Client) (e : Event) : (c.handle e).1.timeoutMs = c.timeoutMs := by
  rw [handle]
  cases c.held <;> rfl

end Client

namespace Situation

theorem distinct_step {s : Situation} (h : s.client.servers.Distinct) (act : Act) :
    (s.step act).client.servers.Distinct := by
  cases act with
  | call call now seed =>
    rw [step, client_goOn]
    exact Client.distinct_begin h call now seed
  | answer place answer now =>
    rw [step]
    split
    · rw [client_goOn]
      exact Client.distinct_resume h _ answer now
    · exact h
  | event e =>
    show (s.client.handle e).1.servers.Distinct
    rwa [Client.servers_handle]

theorem distinct_run {s : Situation} (h : s.client.servers.Distinct) (acts : List Act) :
    (s.run acts).client.servers.Distinct := by
  induction acts generalizing s with
  | nil => exact h
  | cons act acts ih => exact ih (distinct_step h act)

end Situation

/-! ## What comes of a selection -/

namespace Command

variable {command : Command} {server : Peer} {rest : List Peer} {answer : Answer} {now : Nat}
  {answers : List (Answer × Nat)}

/-- How many answers refuse the command before the first that takes it. -/
def refusals (command : Command) (answers : List (Answer × Nat)) : Nat :=
  (answers.takeWhile fun answer ↦ !command.isTaken answer.1).length

/-- The servers that have answered, up to the first that takes the command, each with its answer and
the time of that. -/
def trials (command : Command) (servers : List Peer) (answers : List (Answer × Nat)) :
    List (Peer × Answer × Nat) :=
  (servers.zip answers).take (command.refusals answers + 1)

theorem refusals_of_taken (h : command.isTaken answer = true) :
    command.refusals ((answer, now) :: answers) = 0 := by
  simp [refusals, h]

theorem refusals_of_refused (h : command.isTaken answer = false) :
    command.refusals ((answer, now) :: answers) = command.refusals answers + 1 := by
  simp [refusals, h]

theorem trials_of_taken (h : command.isTaken answer = true) :
    command.trials (server :: rest) ((answer, now) :: answers) = [(server, answer, now)] := by
  simp [trials, refusals_of_taken h]

theorem trials_of_refused (h : command.isTaken answer = false) :
    command.trials (server :: rest) ((answer, now) :: answers) =
      (server, answer, now) :: command.trials rest answers := by
  simp [trials, refusals_of_refused h]

end Command

open Situation (tried returned)

/-- What comes of trying a command on some servers, given their answers and the faults before. -/
structure FailsOver (command : Command) (servers : List Peer) (failure : Failure)
    (answers : List (Answer × Nat)) (faults faults' : Table PeerId Nat)
    (course : List (Command × Progress)) : Prop where
  /-- The servers are tried in their order, up to the first that takes the command. -/
  tried : tried course =
    (servers.take (command.refusals answers + 1)).map fun server ↦ (command, server)
  /-- Who refuses the command is marked as faulty, and the mark of who takes it is cleared. -/
  marks : ∀ server answer now, (server, answer, now) ∈ command.trials servers answers →
    faults'.find? server.id = if command.isTaken answer then none else some now
  /-- The marks of all others stay as they are. -/
  others : ∀ id, (∀ trial ∈ command.trials servers answers, trial.1.id ≠ id) →
    faults'.find? id = faults.find? id
  /-- The call succeeds if one of the servers takes the command, and fails if none of them does. -/
  returned : returned course =
    if (answers.take servers.length).any fun answer ↦ command.isTaken answer.1 then
      [⟨command, .ok ()⟩]
    else if servers.length ≤ answers.length then [⟨command, .error failure⟩]
    else []

namespace FailsOver

variable {command : Command} {server : Peer} {rest : List Peer} {failure : Failure}
  {answers : List (Answer × Nat)} {faults faults' : Table PeerId Nat} {a : Attempt}

/-- There is no server. -/
theorem nobody (command : Command) (failure : Failure) (answers : List (Answer × Nat))
    (faults : Table PeerId Nat) :
    FailsOver command [] failure answers faults faults
      [(command, .finished (.error failure))] where
  tried := rfl
  marks := by simp [Command.trials]
  others _ _ := rfl
  returned := by simp [Situation.returned, Progress.result?]

/-- The first server has not answered yet. -/
theorem pending (ha : a.command = command) (hserver : a.server = server) :
    FailsOver command (server :: rest) failure [] faults faults [(command, .waiting a)] where
  tried := by simp [Situation.tried, Progress.attempt?, Command.refusals, ha, hserver]
  marks := by simp [Command.trials]
  others _ _ := rfl
  returned := by simp [Situation.returned, Progress.result?]

/-- The first server takes the command. -/
theorem taken {answer : Answer} {now : Nat} (ha : a.command = command)
    (hserver : a.server = server) (h : command.isTaken answer = true) :
    FailsOver command (server :: rest) failure ((answer, now) :: answers) faults
      (faults.erase server.id) [(command, .waiting a), (command, .finished (.ok ()))] where
  tried := by
    simp [Situation.tried, Progress.attempt?, Command.refusals_of_taken h, ha, hserver]
  marks _ _ _ hmem := by
    rw [Command.trials_of_taken h, List.mem_singleton] at hmem
    cases hmem
    rw [Table.find?_erase, if_pos rfl, if_pos h]
  others id hid := by
    rw [Command.trials_of_taken h] at hid
    rw [Table.find?_erase, if_neg (hid _ (List.mem_singleton_self _)).symm]
  returned := by simp [Situation.returned, Progress.result?, h]

/-- The first server refuses the command, and the next ones are tried. -/
theorem refused {answer : Answer} {now : Nat} {course : List (Command × Progress)}
    (ha : a.command = command) (hserver : a.server = server)
    (h : command.isTaken answer = false) (hnot : server.id ∉ rest.map Peer.id)
    (hrest : FailsOver command rest failure answers (faults.insert server.id now) faults' course) :
    FailsOver command (server :: rest) failure ((answer, now) :: answers) faults faults'
      ((command, .waiting a) :: course) where
  tried := by
    rw [Command.refusals_of_refused h, List.take_succ_cons, List.map_cons, ← hrest.tried, ← ha,
      ← hserver]
    rfl
  marks server' answer' now' hmem := by
    rw [Command.trials_of_refused h] at hmem
    obtain hfirst | hlater := List.mem_cons.mp hmem
    · cases hfirst
      -- the servers after it have other ids
      have hsame := hrest.others server.id fun trial htrial heq ↦ by
        have hzip := List.mem_of_mem_take htrial
        exact hnot (heq ▸ List.mem_map_of_mem (List.of_mem_zip hzip).1)
      rw [hsame, Table.find?_insert, if_pos rfl, h]
      rfl
    · exact hrest.marks server' answer' now' hlater
  others id hid := by
    rw [Command.trials_of_refused h] at hid
    have hne : id ≠ server.id := (hid _ List.mem_cons_self).symm
    rw [hrest.others id fun trial htrial ↦ hid trial (List.mem_cons_of_mem _ htrial),
      Table.find?_insert, if_neg hne]
  returned := by
    have hfirst : Situation.returned ((command, .waiting a) :: course) =
        Situation.returned course := rfl
    rw [hfirst, hrest.returned, List.length_cons, List.take_succ_cons, List.any_cons, h,
      Bool.false_or, List.length_cons]
    simp only [Nat.add_le_add_iff_right]

end FailsOver

/-! ## A call while no other is going on -/

/-- What the only call that waits hears. -/
def Act.heard? : Act → Option (Answer × Nat)
  | .answer 0 reply now => some (reply, now)
  | _ => none

namespace Situation

/-- The same situation with other faults of the servers. -/
def withFaults (s : Situation) (faults : Table PeerId Nat) : Situation where
  client := { s.client with servers := { s.client.servers with faultySince := faults } }
  waiting := s.waiting

/-- Nothing becomes of what happens when no call waits and none begins. -/
theorem idle {s : Situation} (h : s.waiting = []) {acts : List Act}
    (hacts : ∀ call now seed, Act.call call now seed ∉ acts) :
    (s.run acts).client.servers = s.client.servers ∧ s.course acts = [] := by
  induction acts generalizing s with
  | nil => exact ⟨rfl, rfl⟩
  | cons act acts ih =>
    have hrest : ∀ call now seed, Act.call call now seed ∉ acts :=
      fun call now seed hmem ↦ hacts call now seed (List.mem_cons_of_mem _ hmem)
    have hact : (s.step act).waiting = [] ∧ (s.step act).client.servers = s.client.servers ∧
        s.progress? act = none := by
      cases act with
      | call call now seed => exact absurd List.mem_cons_self (hacts call now seed)
      | answer place answer now =>
        rw [step, progress?, h]
        exact ⟨h, rfl, rfl⟩
      | event e => exact ⟨h, s.client.servers_handle e, rfl⟩
    obtain ⟨hwaiting, hservers, hnone⟩ := hact
    obtain ⟨hrun, hcourse⟩ := ih hwaiting hrest
    refine ⟨hrun.trans hservers, ?_⟩
    rw [course, hnone, hcourse]
    rfl

/-- Where no call begins, no more calls wait than before. -/
theorem length_waiting_run_le {acts : List Act}
    (hacts : ∀ call now seed, Act.call call now seed ∉ acts) (s : Situation) :
    (s.run acts).waiting.length ≤ s.waiting.length := by
  induction acts generalizing s with
  | nil => exact Nat.le_refl _
  | cons act acts ih =>
    have hact : (s.step act).waiting.length ≤ s.waiting.length := by
      cases act with
      | call call now seed => exact absurd List.mem_cons_self (hacts call now seed)
      | event e => exact Nat.le_refl _
      | answer place answer now =>
        rw [step]
        split
        · next hplace =>
          obtain ⟨hlt, -⟩ := List.getElem?_eq_some_iff.mp hplace
          unfold goOn
          split <;> simp only [List.length_append, List.length_eraseIdx_of_lt hlt,
            List.length_singleton] <;> omega
        · exact Nat.le_refl _
    have hrest := ih (fun call now seed hmem ↦
      hacts call now seed (List.mem_cons_of_mem _ hmem)) (s.step act)
    exact Nat.le_trans hrest hact

/-- What comes of it when a client tries the next of some servers, and then acts happen. -/
def FailsOverIn (acts : List Act) (c : Client) (command : Command) (selection rest : List Peer) :
    Prop :=
  let outcome := c.tryNext command selection rest
  FailsOver command rest (command.unmet c.timeoutMs selection) (acts.filterMap Act.heard?)
    c.servers.faultySince ((goOn [] outcome).run acts).client.servers.faultySince
    ((command, outcome.2.2) :: (goOn [] outcome).course acts)

variable {acts : List Act}

/-- There is no server left. -/
theorem failsOverIn_nil (hacts : ∀ call now seed, Act.call call now seed ∉ acts) (c : Client)
    (command : Command) (selection : List Peer) : FailsOverIn acts c command selection [] := by
  have hgone : (goOn [] (c.tryNext command selection [])).waiting = [] := by
    rw [goOn, Client.tryNext_nil]
  obtain ⟨hservers, hcourse⟩ := idle hgone hacts
  unfold FailsOverIn
  dsimp only
  rw [hservers, hcourse, client_goOn, Client.servers_tryNext, Client.tryNext_nil]
  exact .nobody ..

/-- The server that is tried answers: it takes the command, or the next one is tried. -/
theorem failsOverIn_answer (hacts : ∀ call now seed, Act.call call now seed ∉ acts) (c : Client)
    {a : Attempt} (hnot : a.server.id ∉ a.rest.map Peer.id) (answer : Answer) (now : Nat)
    (hrest : ∀ c', FailsOverIn acts c' a.command a.selection a.rest) :
    FailsOverIn (.answer 0 answer now :: acts) c a.command a.selection (a.server :: a.rest) := by
  show FailsOver a.command (a.server :: a.rest) _ ((answer, now) :: acts.filterMap Act.heard?) _
    ((goOn [] (c.resume a answer now)).run acts).client.servers.faultySince
    ((a.command, .waiting a) :: (a.command, (c.resume a answer now).2.2) ::
      (goOn [] (c.resume a answer now)).course acts)
  cases htaken : a.command.isTaken answer with
  | true =>
    obtain ⟨hprogress, hservers, -⟩ := Client.resume_of_taken (c := c) htaken now
    have hgone : (goOn [] (c.resume a answer now)).waiting = [] := by rw [goOn, hprogress]
    obtain ⟨hafter, hcourse⟩ := idle hgone hacts
    rw [hafter, hcourse, client_goOn, hservers, hprogress]
    exact .taken rfl rfl htaken
  | false =>
    obtain ⟨notice, hfall⟩ := Client.resume_of_refused (c := c) htaken now
    rw [hfall]
    exact .refused rfl rfl htaken hnot
      (hrest { c with servers := c.servers.markFaulty now a.server.id })

/-- What comes of trying servers in turn, when no other call is going on. -/
theorem failsOverIn_of_alone (hacts : ∀ call now seed, Act.call call now seed ∉ acts)
    (command : Command) (selection : List Peer) {rest : List Peer}
    (hdistinct : (rest.map Peer.id).Nodup) (c : Client) :
    FailsOverIn acts c command selection rest := by
  induction acts generalizing c rest with
  | nil =>
    cases rest with
    | nil => exact failsOverIn_nil hacts c command selection
    | cons server rest => exact .pending rfl rfl
  | cons act acts ih =>
    cases rest with
    | nil => exact failsOverIn_nil hacts c command selection
    | cons server rest =>
      have hlater : ∀ call now seed, Act.call call now seed ∉ acts :=
        fun call now seed hmem ↦ hacts call now seed (List.mem_cons_of_mem _ hmem)
      cases act with
      | call call now seed => exact absurd List.mem_cons_self (hacts call now seed)
      | event e =>
        have hrest := ih hlater hdistinct (c.handle e).1
        unfold FailsOverIn at hrest
        rw [Client.timeoutMs_handle, Client.servers_handle] at hrest
        exact hrest
      | answer place answer now =>
        obtain ⟨hnot, hdistinct'⟩ := List.nodup_cons.mp hdistinct
        cases place with
        | succ place => exact ih hlater hdistinct c
        | zero =>
          exact failsOverIn_answer (a := ⟨command, server, rest, selection⟩) hlater c hnot answer
            now (ih hlater hdistinct')

variable {s : Situation} {call : Call} {now seed : Nat}

/-- A call that issues a command while no other call is going on. -/
theorem failsOver_of_command (hidle : s.waiting = []) (hdistinct : s.client.servers.Distinct)
    (hacts : ∀ call now seed, Act.call call now seed ∉ acts) {command : Command}
    (h : s.client.command? call = some command) :
    FailsOver command (s.client.chosen call now seed)
      (command.unmet s.client.timeoutMs (s.client.chosen call now seed))
      (acts.filterMap Act.heard?) s.client.servers.faultySince
      (s.run (.call call now seed :: acts)).client.servers.faultySince
      (s.course (.call call now seed :: acts)) := by
  obtain ⟨notices, hbegin⟩ := Client.begin_of_command h now seed
  have hfails := failsOverIn_of_alone hacts command (s.client.chosen call now seed)
    (Client.nodup_chosen hdistinct call now seed) (s.client.poised call now seed)
  unfold FailsOverIn at hfails
  rw [Client.timeoutMs_poised, Client.faultySince_poised] at hfails
  rw [course, run, List.foldl_cons, step, progress?, hidle, h, hbegin]
  exact hfails

/-- A call that issues no command. -/
theorem idle_of_no_command (hidle : s.waiting = [])
    (hacts : ∀ call now seed, Act.call call now seed ∉ acts) (h : s.client.command? call = none) :
    s.course (.call call now seed :: acts) = [] ∧
    (s.run (.call call now seed :: acts)).client.servers = s.client.servers ∧
    ∃ failure, (s.client.begin call now seed).2.2 = .finished (.error failure) ∧
      (failure = .notRegistered ∨ failure = .endOfTime) := by
  obtain ⟨failure, hprogress, hwhy, hservers, -⟩ := Client.begin_of_no_command h now seed
  have hgone : (s.step (.call call now seed)).waiting = [] := by rw [step, goOn, hprogress, hidle]
  obtain ⟨hafter, hcourse⟩ := idle hgone hacts
  refine ⟨?_, ?_, failure, hprogress, hwhy⟩
  · rw [course, hcourse, progress?, h]
    rfl
  · refine hafter.trans ?_
    rw [step, client_goOn, hservers]

/-- **What comes of a call while no other is going on.**  Take a client in any state that it can get
into, with any faults, whose calls have all returned.  Make a call, and then let its servers answer
and events come in, in any order.

* If the call issues a command, no two of the servers chosen for it have the same id, and `FailsOver`
  says which of them are tried, what becomes of their faults, and what the call returns.
* If it issues none, it fails at once, no server is tried, and no fault changes.
* At no time does the client wait for more than one server. -/
theorem failsOver_of_run (settings : Settings) (clock : Clock) (roster : Roster)
    (acts : List Act) (faults : Table PeerId Nat) (call : Call) (now seed : Nat)
    (later : List Act) (hlater : ∀ call now seed, Act.call call now seed ∉ later)
    (hidle : ((start settings clock roster).run acts).waiting = []) :
    let s := ((start settings clock roster).run acts).withFaults faults
    let selection := s.client.chosen call now seed
    let s' := s.run (.call call now seed :: later)
    let course := s.course (.call call now seed :: later)
    (∀ command, s.client.command? call = some command →
      (selection.map Peer.id).Nodup ∧
      FailsOver command selection (command.unmet s.client.timeoutMs selection)
        (later.filterMap Act.heard?) faults s'.client.servers.faultySince course) ∧
    (s.client.command? call = none →
      course = [] ∧ s'.client.servers.faultySince = faults ∧
      ∃ failure, (s.client.begin call now seed).2.2 = .finished (.error failure) ∧
        (failure = .notRegistered ∨ failure = .endOfTime)) ∧
    s'.waiting.length ≤ 1 := by
  intro s selection s' course
  have hnobody : s.waiting = [] := hidle
  have hdistinct : s.client.servers.Distinct := by
    obtain ⟨hconfigured, hselected⟩ :=
      distinct_run (s := start settings clock roster) (Servers.distinct_ofSettings settings) acts
    exact ⟨hconfigured, hselected⟩
  refine ⟨fun command hcommand ↦ ⟨Client.nodup_chosen hdistinct call now seed,
    failsOver_of_command hnobody hdistinct hlater hcommand⟩, fun hnone ↦ ?_, ?_⟩
  · obtain ⟨hcourse, hservers, hfailed⟩ := idle_of_no_command hnobody hlater hnone
    exact ⟨hcourse, congrArg Servers.faultySince hservers, hfailed⟩
  · refine Nat.le_trans (length_waiting_run_le hlater (s.step (.call call now seed))) ?_
    rw [step, hnobody, goOn]
    split <;> simp

/-! ## The second server -/

/-- A client with two directory servers and an instance of its own peer. -/
def withTwoServers : Situation :=
  start { directoryEndPoints := ["tcp://directory:1", "tcp://directory:2"] }
    ⟨⟨⟨2024, 3, 1⟩, 12, 0, 0, 0, Registration.valid_noon⟩, []⟩
    ⟨#[{ endPoint := "tcp://Abc.Self.0:1" }]⟩

/-- The first server does not answer in time, an event comes in, and the second server takes the
registration. -/
def takenByTheSecond : List Act :=
  [.answer 0 .silent 5, .event (.decommissioned ⟨⟨"Abc.P.0"⟩⟩), .answer 0 (.replied 0 (some [])) 7]

/-- The call succeeds; the first server is marked as faulty, and the mark of the second, which had
one, is cleared. -/
theorem failsOver_takenByTheSecond :
    let s := (withTwoServers.run []).withFaults (Table.empty.insert (.directory 1) 0)
    let call := Call.register ⟨⟨"Abc.Self.0"⟩, 0⟩ []
    let s' := s.run (.call call 3 0 :: takenByTheSecond)
    returned (s.course (.call call 3 0 :: takenByTheSecond)) =
      [⟨.register (s.client.ownDescriptor ⟨⟨"Abc.Self.0"⟩, 0⟩ []), .ok ()⟩] ∧
    s'.client.servers.faultySince.find? (.directory 0) = some 5 ∧
    s'.client.servers.faultySince.find? (.directory 1) = none := by
  intro s call s'
  have hselection : s.client.chosen call 3 0 = [.live (.directory 0) "tcp://directory:1",
      .live (.directory 1) "tcp://directory:2"] := by
    with_unfolding_all rfl
  obtain ⟨hissued, -⟩ := failsOver_of_run
    { directoryEndPoints := ["tcp://directory:1", "tcp://directory:2"] }
    ⟨⟨⟨2024, 3, 1⟩, 12, 0, 0, 0, Registration.valid_noon⟩, []⟩
    ⟨#[{ endPoint := "tcp://Abc.Self.0:1" }]⟩ [] (Table.empty.insert (.directory 1) 0)
    call 3 0 takenByTheSecond (fun call now seed ↦ by simp [takenByTheSecond]) rfl
  have hfails : FailsOver _ (s.client.chosen call 3 0) _ _ _ s'.client.servers.faultySince _ :=
    (hissued (.register (s.client.ownDescriptor ⟨⟨"Abc.Self.0"⟩, 0⟩ [])) rfl).2
  rw [hselection] at hfails
  exact ⟨hfails.returned.trans rfl,
    hfails.marks (.live (.directory 0) "tcp://directory:1") .silent 5 List.mem_cons_self,
    hfails.marks (.live (.directory 1) "tcp://directory:2") (.replied 0 (some [])) 7
      (List.mem_cons_of_mem _ List.mem_cons_self)⟩

end Situation

end Directory

end ServiceBus
