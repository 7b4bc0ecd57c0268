import ServiceBus.Proofs.Directory.Registration
import ServiceBus.Proofs.Durable.Conservation
import ServiceBus.Proofs.Durable.Liaison

/-!
# When commands wait for the persistence service

A command waits because the link is marked as down, because the directory names no server of the
service, or because the carrier failed.  What waits is flushed when the service is heard to start,
or when updates were missed while the link was marked as down; nothing else makes it leave.

`Traffic.mark?` says at which occurrences a command comes to wait, and at which all that wait are
taken out.  By `Liaison.waiting_eq_nil_iff` the last of these decides whether any command waits, in
every run.  So it does not matter that a server is named by now: a service that was learned of with
a registration, or through a change of its subscriptions, was not heard to start.
-/

set_option autoImplicit false

namespace ServiceBus.Durable

open Directory (View Update)

/-! ## What waits after each function of the outbox -/

namespace Outbox

variable {b : Outbox} {server? : Option Peer} {command : Envelope} {o : Outside}

/-- A command cannot be given: there is no server to give it to, or the carrier fails. -/
def refuses (b : Outbox) (server? : Option Peer) (command : Envelope) (o : Outside) : Bool :=
  (b.target? server?).isNone || o.carrier.fails command.type

/-- Nobody can be given a command if there is no server. -/
theorem refuses_none (b : Outbox) (command : Envelope) (o : Outside) :
    b.refuses none command o = true := by
  simp [refuses, target?]

theorem waiting_give (b : Outbox) (server? : Option Peer) (command : Envelope) (o : Outside) :
    (b.give server? command o).1.waiting =
      if b.refuses server? command o then b.waiting ++ [command] else b.waiting := by
  rw [give, refuses]
  cases b.target? server? with
  | none => rfl
  | some server => cases hfails : o.carrier.fails command.type <;>
      simp [Outside.send, Carrier.send, hfails]

/-- The next command of a flush cannot be sent. -/
def cutsShort (f : Flush) (o : Outside) : Bool :=
  f.leaving.head?.any fun command ↦ o.carrier.fails command.type

theorem leaving_ne_nil_of_cutsShort {f : Flush} (h : cutsShort f o = true) : f.leaving ≠ [] := by
  intro hnil
  simp [cutsShort, hnil] at h

theorem waiting_stepFlush (b : Outbox) (f : Flush) (o : Outside) :
    (b.stepFlush f o).1.waiting =
      if cutsShort f o then b.waiting ++ f.leaving else b.waiting := by
  rw [stepFlush, cutsShort]
  cases f.leaving with
  | nil => rfl
  | cons command rest => cases hfails : o.carrier.fails command.type <;>
      simp [Outside.send, Carrier.send, hfails]

theorem waiting_beginFlush (b : Outbox) (server? : Option Peer) (o : Outside) :
    (b.beginFlush server? o).1.waiting = if server?.isSome then [] else b.waiting := by
  unfold beginFlush
  split
  · next hempty =>
    rw [List.isEmpty_iff.mp hempty]
    split <;> rfl
  · cases server? <;> rfl

/-- The service is heard to start. -/
def hearsStart (update : Update) : Bool := update.peer.isPersistence && update.action = .started

theorem waiting_beginHear (b : Outbox) (server? : Option Peer) (update : Update) (o : Outside) :
    (b.beginHear server? update o).1.waiting =
      if hearsStart update && server?.isSome then [] else b.waiting := by
  obtain ⟨peer, action⟩ := update
  rw [beginHear, hearsStart]
  cases peer.isPersistence with
  | false => rfl
  | true =>
    cases action with
    | started => exact waiting_beginFlush _ server? _
    | _ => rfl

theorem waiting_beginCatchUp (b : Outbox) (server? : Option Peer) (o : Outside) :
    (b.beginCatchUp server? o).1.waiting =
      if b.down && server?.isSome then [] else b.waiting := by
  rw [beginCatchUp]
  split
  · next h =>
    rw [waiting_beginFlush, if_pos (Bool.and_eq_true_iff.mp h).2]
  · rfl

end Outbox

/-! ## What decides whether a command waits -/

/-- What decides whether a command waits. -/
inductive Mark
  /-- All commands that wait are taken out. -/
  | cleared
  /-- A command comes to wait. -/
  | setback
deriving DecidableEq

namespace Traffic

/-- How it is decided when the holder of the link goes on, as the directory is seen then. -/
def markOfProceed (x : Traffic) (v : View) : Option Mark :=
  let b := x.transport.outbox
  let server? := v.persistenceServer?
  match x.holder with
  | .arrived (.give _ _) => if (b.target? server?).isNone then some .setback else none
  | .giving server command _ =>
    if b.refuses (some server) command x.outside then some .setback else none
  | .flushing _ flush => if Outbox.cutsShort flush x.outside then some .setback else none
  | .arrived (.hear update) =>
    if Outbox.hearsStart update && server?.isSome then some .cleared else none
  | .arrived .catchUp => if b.down && server?.isSome then some .cleared else none
  | .arrived (.stopping _) | .nobody => none

/-- How it is decided at an occurrence, if it is. -/
def mark? (x : Traffic) : Occurrence → Option Mark
  | .proceed v => x.markOfProceed v
  | _ => none

/-- What decides in a run, in its order. -/
def marks : Traffic → List Occurrence → List Mark
  | _, [] => []
  | x, occurrence :: occurrences =>
    (x.mark? occurrence).toList ++ (x.step occurrence).marks occurrences

variable {x : Traffic}

theorem transport_conclude (x : Traffic) (handled : Option Envelope) :
    (x.conclude handled).transport = x.transport :=
  (aside_conclude x handled).transport

theorem outbox_deliver (x : Traffic) (server? : Option Peer) (command : Envelope)
    (handled : Option Envelope) :
    (x.deliver server? command handled).transport.outbox =
      (x.transport.outbox.give server? command x.outside).1 := by
  rw [deliver]
  dsimp only
  rw [transport_conclude, outbox_goOn]

/-- Nobody but the holder of the link changes the outbox. -/
theorem transport_step {occurrence : Occurrence} (h : ∀ v, occurrence ≠ .proceed v) :
    (x.step occurrence).transport = x.transport := by
  obtain ⟨x', haside, hstep | ⟨errand, hstep⟩⟩ := x.step_eq_or h
  · rw [hstep, haside.transport]
  · rw [hstep, transport_request, haside.transport]

/-- Whether a command waits then, if it came to wait on a condition. -/
theorem append_eq_nil_iff_of_setback {pending new : List Envelope} {refused : Bool}
    (hnew : refused = true → new ≠ []) :
    (if refused then pending ++ new else pending) = [] ↔
      (if refused then some Mark.setback else none).elim (pending = []) (· = .cleared) := by
  cases refused with
  | false => rfl
  | true => simp [hnew rfl]

/-- Whether a command waits then, if all were taken out on a condition. -/
theorem eq_nil_iff_of_cleared (pending : List Envelope) (cleared : Bool) :
    (if cleared then [] else pending) = [] ↔
      (if cleared then some Mark.cleared else none).elim (pending = []) (· = .cleared) := by
  cases cleared <;> simp

/-- When the holder of the link has gone on, nothing waits if it is so decided, or if nothing is
decided and nothing waited before. -/
theorem waiting_proceed (x : Traffic) (v : View) :
    (x.proceed v).transport.outbox.waiting = [] ↔
      (x.markOfProceed v).elim (x.transport.outbox.waiting = []) (· = .cleared) := by
  rw [proceed, markOfProceed]
  cases hholder : x.holder with
  | nobody => rfl
  | arrived errand =>
    cases errand with
    | give command handled =>
      dsimp only
      cases htarget : x.transport.outbox.target? v.persistenceServer? with
      | some server => rfl
      | none =>
        dsimp only
        rw [outbox_deliver, Outbox.waiting_give, Outbox.refuses_none]
        exact append_eq_nil_iff_of_setback fun _ ↦ List.cons_ne_nil _ _
    | stopping sender =>
      show (x.goOn [] _).transport.outbox.waiting = [] ↔ _
      rw [outbox_goOn]
      rfl
    | hear update =>
      dsimp only
      rw [outbox_goOn, Outbox.waiting_beginHear]
      exact eq_nil_iff_of_cleared _ _
    | catchUp =>
      dsimp only
      rw [outbox_goOn, Outbox.waiting_beginCatchUp]
      exact eq_nil_iff_of_cleared _ _
  | giving server command handled =>
    dsimp only
    rw [outbox_deliver, Outbox.waiting_give]
    exact append_eq_nil_iff_of_setback fun _ ↦ List.cons_ne_nil _ _
  | flushing taken flush =>
    dsimp only
    rw [outbox_goOn, Outbox.waiting_stepFlush]
    exact append_eq_nil_iff_of_setback Outbox.leaving_ne_nil_of_cutsShort

/-- So it is after any occurrence. -/
theorem waiting_step (x : Traffic) (occurrence : Occurrence) :
    (x.step occurrence).transport.outbox.waiting = [] ↔
      (x.mark? occurrence).elim (x.transport.outbox.waiting = []) (· = .cleared) := by
  cases occurrence with
  | proceed v => exact x.waiting_proceed v
  | _ =>
    rw [transport_step fun _ ↦ Occurrence.noConfusion]
    rfl

/-- The last entry of a list, or one before it, when the first entry is looked at by itself. -/
theorem getLast?_toList_append {α : Type} (first? : Option α) (rest : List α) (last : Option α) :
    (first?.toList ++ rest).getLast?.or last = rest.getLast?.or (first?.or last) := by
  rw [List.getLast?_append, Option.or_assoc]
  cases first? <;> rfl

/-- The last mark decides whether a command waits. -/
theorem waiting_run {last : Option Mark}
    (h : x.transport.outbox.waiting = [] ↔ last ≠ some .setback) (occurrences : List Occurrence) :
    (x.run occurrences).transport.outbox.waiting = [] ↔
      (x.marks occurrences).getLast?.or last ≠ some .setback := by
  induction occurrences generalizing x last with
  | nil => exact h
  | cons occurrence occurrences ih =>
    have hstep : (x.step occurrence).transport.outbox.waiting = [] ↔
        (x.mark? occurrence).or last ≠ some .setback := by
      rw [waiting_step]
      cases x.mark? occurrence with
      | none => exact h
      | some mark => cases mark <;> simp
    rw [marks, getLast?_toList_append]
    exact ih hstep

end Traffic

namespace Liaison

/-- What decides in a run whether a command waits, in its order. -/
def marks (x : Liaison) (incidents : List Incident) : List Mark :=
  x.traffic.marks (x.occurrences incidents)

/-- **When commands wait.**  In every run of a client and a transport that follows it, some command
waits just if one came to wait after the last time at which all were taken out.  One comes to wait
when the link is marked as down, when the directory names no server of the service, and when the
carrier fails.  All are taken out when the service is heard to start, or updates were missed while
the link was marked as down, and the directory names a server just then. -/
theorem waiting_eq_nil_iff (settings : Settings) (clock : Directory.Clock) (roster : Roster)
    (origin : Origin) (outside : Outside) (incidents : List Incident) :
    let x := start settings clock roster origin outside
    (x.run incidents).traffic.transport.outbox.waiting = [] ↔
      (x.marks incidents).getLast? ≠ some .setback := by
  intro x
  have hstart : x.traffic.transport.outbox.waiting = [] ↔ none ≠ some Mark.setback :=
    iff_of_true rfl nofun
  rw [traffic_run, Traffic.waiting_run hstart, Option.or_none]
  rfl

/-- Nothing is going on, and the transport has read all updates. -/
structure Calm (x : Liaison) : Prop where
  calls : x.situation.waiting = []
  holder : x.traffic.holder = .nobody
  jobs : x.traffic.jobs = []
  read : x.place = some x.feed.sent.size

instance (holder : Holder) : Decidable (holder = .nobody) :=
  match holder with
  | .nobody => isTrue rfl
  | .arrived _ | .giving .. | .flushing .. => isFalse Holder.noConfusion

instance (x : Liaison) : Decidable x.Calm :=
  decidable_of_iff (x.situation.waiting = [] ∧ x.traffic.holder = .nobody ∧ x.traffic.jobs = [] ∧
      x.place = some x.feed.sent.size)
    ⟨fun ⟨calls, holder, jobs, read⟩ ↦ ⟨calls, holder, jobs, read⟩,
      fun ⟨calls, holder, jobs, read⟩ ↦ ⟨calls, holder, jobs, read⟩⟩

/-- A clock that stands at noon. -/
def noon : Directory.Clock :=
  ⟨⟨⟨2024, 3, 1⟩, 12, 0, 0, 0, Directory.Registration.valid_noon⟩, []⟩

/-- A transport that messages are kept for, and a client that knows of one directory server. -/
def atNoon (verdicts : List Bool) : Liaison :=
  start { directoryEndPoints := ["tcp://directory:1"], persistent := true } noon
    ⟨#[{ endPoint := "tcp://Abc.Self.0:1" }]⟩ ⟨⟨"Abc.Self.0"⟩, "tcp://Abc.Self.0:1"⟩
    { carrier := { verdicts } }

/-- The persistence service. -/
def service : Descriptor Peer where
  peer := .live (.persistence "0") "tcp://Bus.PersistenceService.0:1"
  subscriptions := [.toAll (Message.type Persist)]

/-- A message of which the persistence service has a copy. -/
def keptLetter : Envelope where
  id := .fresh 9
  type := ⟨"Tests.FakeEvent"⟩
  content := []
  origin := ⟨⟨"Abc.P.0"⟩, "tcp://Abc.P.0:1"⟩
  persistent := true
  persisted := true

/-- The message is handled before the service is known, which is learned of with a registration. -/
def learnsLate : List Incident :=
  [.follow, .ack keptLetter, .proceed, .settle 0,
    .act (.call (.register ⟨⟨"Abc.Self.0"⟩, 0⟩ []) 0 0),
    .act (.answer 0 (.replied 0 (some [service])) 0)]

/-- The service starts, and then the message is handled. -/
def startsBefore : List Incident :=
  [.follow, .act (.event (.started ⟨service⟩)), .read, .proceed, .ack keptLetter, .proceed,
    .proceed, .settle 0]

/-- A command is stuck: after some incidents nothing is going on, the transport has read all updates
and missed none, the link is up, and the directory names a server of the service; still a command
waits. -/
def IsStuck (x : Liaison) (incidents : List Incident) : Prop :=
  let x' := x.run incidents
  x'.Calm ∧ (x.occurrences incidents).any Occurrence.isMissed = false ∧
    x'.traffic.transport.outbox.down = false ∧ x'.view.persistenceServer?.isSome ∧
    x'.traffic.transport.outbox.waiting ≠ []

/-- **A command can be stuck.**  So it is if the service is learned of with a registration, and also
if the carrier fails at the command while the link is up. -/
theorem isStuck_learnsLate_startsBefore :
    (atNoon []).IsStuck learnsLate ∧ (atNoon [true]).IsStuck startsBefore := by
  unfold IsStuck
  decide +kernel

end Liaison

end ServiceBus.Durable
