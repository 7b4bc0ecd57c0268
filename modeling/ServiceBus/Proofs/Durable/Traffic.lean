import ServiceBus.Durable.Transport

/-!
# Several at the link

The outbox is the link to the persistence service, and several parties use it at the same time:
whoever sends a message or is done with one, the service when it is about to stop, and whoever
follows the directory.  The link has one holder at a time.  The others stand in line, and have it
in the order in which they came; the holder may wait for the carrier and keeps the link meanwhile.

A `Traffic` is a transport with all that goes on around its link, and an `Occurrence` is the next
thing that one of the parties does.  The order of occurrences is free.  Two fields of a traffic say
what happened so far: which commands were given, and what the carrier was given on account of the
link.

The last part of this file says that whoever is undisturbed does just what the functions of
`Transport` say.
-/

set_option autoImplicit false

namespace ServiceBus.Durable

open Directory (View Update)

/-- What the link is wanted for. -/
inductive Errand
  /-- To give a command.  If that is on account of a message that was handled, the carrier is told
  of it afterwards. -/
  | give (command : Envelope) (handled : Option Envelope)
  /-- To note that the service is about to stop. -/
  | stopping (sender : Origin)
  /-- To hear what became of a peer. -/
  | hear (update : Update)
  /-- To make up for updates that were missed. -/
  | catchUp

/-- The commands that are given on an errand. -/
def Errand.commands : Errand → List Envelope
  | give command _ => [command]
  | _ => []

/-- Who has the link. -/
inductive Holder
  /-- Nobody. -/
  | nobody
  /-- Somebody who has just come to it. -/
  | arrived (errand : Errand)
  /-- Somebody who gives a command to a server. -/
  | giving (server : Peer) (command : Envelope) (handled : Option Envelope)
  /-- Somebody who flushes the commands that were taken out. -/
  | flushing (taken : List Envelope) (flush : Flush)

namespace Holder

/-- The commands that the holder has in hand. -/
def commands : Holder → List Envelope
  | nobody => []
  | arrived errand => errand.commands
  | giving _ command _ => [command]
  | flushing _ flush => flush.leaving

/-- The server that the holder sends to. -/
def server? : Holder → Option Peer
  | giving server _ _ => some server
  | flushing _ flush => some flush.server
  | _ => none

end Holder

/-- What the carrier is to do for a party that does not have the link. -/
inductive Job
  /-- To send a message of which no copy may be kept. -/
  | plain (message : Envelope) (targets : List Peer)
  /-- To send a message to the peers for which nothing is kept. -/
  | others (message : Envelope) (others kept : List Peer)
  /-- To send a message to the peers for which a copy is kept. -/
  | kept (message : Envelope) (targets : List Peer)
  /-- To be told that a message was handled. -/
  | ack (message : Envelope)
  /-- To answer the service that is about to stop. -/
  | stoppingAck (sender : Origin)

/-- A transport, and what goes on around its link. -/
structure Traffic where
  /-- The transport. -/
  transport : Transport
  /-- What it acts upon. -/
  outside : Outside
  /-- Who has the link. -/
  holder : Holder := .nobody
  /-- Who stands in line for the link, in the order in which they came. -/
  line : List Errand := []
  /-- What the carrier is to do. -/
  jobs : List Job := []
  /-- What came of the calls that are over, oldest first. -/
  answers : List (Except Failure Unit) := []
  /-- The commands that were given, oldest first. -/
  given : List Envelope := []
  /-- What the carrier was given on account of the link, oldest first. -/
  handed : List Parcel := []

/-- What one of the parties does. -/
inductive Occurrence
  /-- Somebody sends a message, as the directory is seen then. -/
  | send (v : View) (message : Envelope) (targets : List Peer)
  /-- Somebody is done with a message. -/
  | ack (message : Envelope)
  /-- The persistence service is heard to be about to stop. -/
  | stopping (sender : Origin)
  /-- It is heard what became of a peer. -/
  | hear (update : Update)
  /-- It is heard that updates were missed. -/
  | missed
  /-- The carrier does one of its jobs. -/
  | settle (place : Nat)
  /-- The holder of the link goes on, as the directory is seen then. -/
  | proceed (v : View)

/-- A command that has a target is given to it. -/
theorem Outbox.give_target? (b : Outbox) (server? : Option Peer) (command : Envelope)
    (o : Outside) :
    b.give (b.target? server?) command o = b.give server? command o := by
  have htarget : b.target? (b.target? server?) = b.target? server? := by
    rw [target?]
    split <;> simp [target?, *]
  rw [give, htarget]
  rfl

namespace Traffic

/-- Nothing has happened yet. -/
def start (settings : Settings) (origin : Origin) (outside : Outside) : Traffic where
  transport := .ofSettings settings origin
  outside := outside

/-! ## The link -/

/-- Somebody comes for the link, and stands in line if another one has it. -/
def request (x : Traffic) (errand : Errand) : Traffic :=
  let given := x.given ++ errand.commands
  match x.holder with
  | .nobody => { x with given, holder := .arrived errand }
  | _ => { x with given, line := x.line ++ [errand] }

/-- The holder gives the link back, and the first in line has it. -/
def release (x : Traffic) : Traffic :=
  match x.line with
  | [] => { x with holder := .nobody }
  | errand :: line => { x with holder := .arrived errand, line }

/-- The holder has changed the outbox, and perhaps given something to the carrier. -/
def carry (x : Traffic) (outbox : Outbox) (outside : Outside) : Traffic :=
  { x with
    transport := { x.transport with outbox }
    outside
    handed := x.handed ++ outside.carrier.parcels.drop x.outside.carrier.parcels.length }

/-- The holder goes on with a flush if there is one, and gives the link back otherwise. -/
def goOn (x : Traffic) (taken : List Envelope) : Outbox × Option Flush × Outside → Traffic
  | (outbox, some flush, outside) =>
    { x.carry outbox outside with holder := .flushing taken flush }
  | (outbox, none, outside) => (x.carry outbox outside).release

/-- There is one more job for the carrier. -/
def charge (x : Traffic) (job : Job) : Traffic := { x with jobs := x.jobs ++ [job] }

/-- A call is over. -/
def answer (x : Traffic) (result : Except Failure Unit) : Traffic :=
  { x with answers := x.answers ++ [result] }

/-- A command was given: the carrier is told of the message that was handled, or the call is over.
-/
def conclude (x : Traffic) : Option Envelope → Traffic
  | some message => x.charge (.ack message)
  | none => x.answer (.ok ())

/-- The holder gives a command. -/
def deliver (x : Traffic) (server? : Option Peer) (command : Envelope) (handled : Option Envelope) :
    Traffic :=
  let (outbox, outside) := x.transport.outbox.give server? command x.outside
  (x.goOn [] (outbox, none, outside)).conclude handled

/-- The holder of the link goes on. -/
def proceed (x : Traffic) (v : View) : Traffic :=
  let b := x.transport.outbox
  match x.holder with
  | .nobody => x
  | .arrived (.give command handled) =>
    match b.target? v.persistenceServer? with
    | some server => { x with holder := .giving server command handled }
    | none => x.deliver none command handled
  | .arrived (.stopping sender) =>
    (x.goOn [] ({ b with down := true }, none, x.outside)).charge (.stoppingAck sender)
  | .arrived (.hear update) =>
    x.goOn b.waiting (b.beginHear v.persistenceServer? update x.outside)
  | .arrived .catchUp => x.goOn b.waiting (b.beginCatchUp v.persistenceServer? x.outside)
  | .giving server command handled => x.deliver (some server) command handled
  | .flushing taken flush => x.goOn taken (b.stepFlush flush x.outside)

/-! ## The other parties -/

/-- A message goes to the peers for which a copy is kept, if there are any. -/
def keep (x : Traffic) (message : Envelope) (targets : List Peer) : Traffic :=
  if targets.isEmpty then x.answer (.ok ()) else x.charge (.kept message targets)

/-- Somebody sends a message. -/
def beginSend (x : Traffic) (v : View) (message : Envelope) (targets : List Peer) : Traffic :=
  if !message.persistent then x.charge (.plain message targets)
  else
    let (kept, others) := targets.partition fun p ↦ v.isPersistent p.id
    if others.isEmpty then x.keep message kept else x.charge (.others message others kept)

/-- Somebody is done with a message. -/
def beginAck (x : Traffic) (message : Envelope) : Traffic :=
  if x.transport.persistent && message.needsAck then
    let (id, outside) := x.outside.fresh
    { x with outside }.request
      (.give (.encode id (⟨message.id⟩ : Handled) x.transport.origin) (some message))
  else x.charge (.ack message)

/-- The carrier does a job. -/
def settle (x : Traffic) : Job → Traffic
  | .plain message targets =>
    let (result, outside) := x.outside.send message targets
    { x with outside }.answer result
  | .others message others kept =>
    match x.outside.send message others with
    | (.error failure, outside) => { x with outside }.answer (.error failure)
    | (.ok _, outside) => { x with outside }.keep message kept
  | .kept message targets =>
    let message := { message with persisted := true }
    match x.outside.send message targets with
    | (.error failure, outside) => { x with outside }.answer (.error failure)
    | (.ok _, outside) =>
      let (id, outside) := outside.fresh
      { x with outside }.request
        (.give (.encode id (⟨message, targets.map Peer.id⟩ : Persist) x.transport.origin) none)
  | .ack message =>
    let (result, outside) := x.outside.ack message
    { x with outside }.answer result
  | .stoppingAck sender =>
    let (id, outside) := x.outside.fresh
    let (result, outside) := outside.send
      (.signal id (Message.type StoppingAck) x.transport.origin)
      [.live sender.sender sender.endPoint]
    { x with outside }.answer result

/-- The traffic after an occurrence. -/
def step (x : Traffic) : Occurrence → Traffic
  | .send v message targets => x.beginSend v message targets
  | .ack message => x.beginAck message
  | .stopping sender =>
    { x with outside := x.outside.note (.persistenceStopping sender.sender) }.request
      (.stopping sender)
  | .hear update => if update.peer.isPersistence then x.request (.hear update) else x
  | .missed => x.request .catchUp
  | .settle place =>
    match x.jobs[place]? with
    | some job => { x with jobs := x.jobs.eraseIdx place }.settle job
    | none => x
  | .proceed v => x.proceed v

/-- The traffic after several occurrences. -/
def run (x : Traffic) (occurrences : List Occurrence) : Traffic := occurrences.foldl step x

/-! ## Whoever is undisturbed -/

/-- One traffic can lead to another. -/
def Leads (x x' : Traffic) : Prop := ∃ occurrences, x.run occurrences = x'

/-- Nobody is at anything, but perhaps one holder of the link.  The transport, what it acts upon
and the answers are as given. -/
structure Alone (x : Traffic) (holder : Holder) (t : Transport) (o : Outside)
    (answers : List (Except Failure Unit)) : Prop where
  holder : x.holder = holder
  line : x.line = []
  jobs : x.jobs = []
  transport : x.transport = t
  outside : x.outside = o
  answers : x.answers = answers

/-- A traffic can lead to one where nobody is at anything any more. -/
def Ends (x : Traffic) (outcome : Transport × Outside) (answers : List (Except Failure Unit)) :
    Prop :=
  ∃ x', Leads x x' ∧ x'.Alone .nobody outcome.1 outcome.2 answers

section Undisturbed

variable {x x' x'' : Traffic} {holder : Holder} {t : Transport} {o : Outside}
  {outcome : Transport × Outside} {answers : List (Except Failure Unit)}

theorem Leads.refl (x : Traffic) : Leads x x := ⟨[], rfl⟩

theorem Leads.of_step (x : Traffic) (occurrence : Occurrence) : Leads x (x.step occurrence) :=
  ⟨[occurrence], rfl⟩

theorem Leads.trans (h : Leads x x') (h' : Leads x' x'') : Leads x x'' := by
  obtain ⟨first, rfl⟩ := h
  obtain ⟨later, rfl⟩ := h'
  exact ⟨first ++ later, List.foldl_append⟩

theorem Leads.ends (h : Leads x x') (h' : x'.Ends outcome answers) : x.Ends outcome answers := by
  obtain ⟨x'', h', halone⟩ := h'
  exact ⟨x'', h.trans h', halone⟩

/-- The carrier does its only job. -/
theorem leads_settle (h : x.jobs = []) (job : Job) : Leads (x.charge job) (x.settle job) := by
  have hstep : (x.charge job).step (.settle 0) = { x with jobs := [] }.settle job := by
    simp [step, charge, h]
  have hjobs : { x with jobs := [] } = x := by rw [← h]
  rw [hjobs] at hstep
  exact hstep ▸ Leads.of_step (x.charge job) (.settle 0)

namespace Alone

theorem ends (h : x.Alone .nobody t o answers) : x.Ends (t, o) answers := ⟨x, .refl x, h⟩

theorem answer (h : x.Alone holder t o answers) (result : Except Failure Unit) :
    (x.answer result).Alone holder t o (answers ++ [result]) :=
  ⟨h.holder, h.line, h.jobs, h.transport, h.outside, congrArg (· ++ [result]) h.answers⟩

theorem withOutside (h : x.Alone holder t o answers) (outside : Outside) :
    { x with outside }.Alone holder t outside answers :=
  ⟨h.holder, h.line, h.jobs, h.transport, rfl, h.answers⟩

theorem request (h : x.Alone .nobody t o answers) (errand : Errand) :
    (x.request errand).Alone (.arrived errand) t o answers := by
  rw [Traffic.request, h.holder]
  exact ⟨rfl, h.line, h.jobs, h.transport, h.outside, h.answers⟩

theorem goOn_none (h : x.Alone holder t o answers) (taken : List Envelope) (outbox : Outbox)
    (outside : Outside) :
    (x.goOn taken (outbox, none, outside)).Alone .nobody { t with outbox } outside answers := by
  obtain ⟨-, hline, hjobs, rfl, -, hanswers⟩ := h
  rw [goOn, release, show (x.carry outbox outside).line = [] from hline]
  exact ⟨rfl, rfl, hjobs, rfl, rfl, hanswers⟩

theorem goOn_some (h : x.Alone holder t o answers) (taken : List Envelope) (outbox : Outbox)
    (flush : Flush) (outside : Outside) :
    (x.goOn taken (outbox, some flush, outside)).Alone (.flushing taken flush)
      { t with outbox } outside answers := by
  obtain ⟨-, hline, hjobs, rfl, -, hanswers⟩ := h
  exact ⟨rfl, hline, hjobs, rfl, rfl, hanswers⟩

/-- Whoever gives a command does what `Outbox.give` tells. -/
theorem exists_give {command : Envelope} {handled : Option Envelope}
    (h : x.Alone (.arrived (.give command handled)) t o answers) (v : View) :
    ∃ x' : Traffic, Leads x (x'.conclude handled) ∧
      x'.Alone .nobody { t with outbox := (t.outbox.give v.persistenceServer? command o).1 }
        (t.outbox.give v.persistenceServer? command o).2 answers := by
  refine ⟨_, ?_, h.goOn_none [] _ _⟩
  obtain ⟨hholder, -, -, rfl, rfl, -⟩ := h
  have hstep := Leads.of_step x (.proceed v)
  rw [step, proceed, hholder] at hstep
  dsimp only at hstep
  have hgive := x.transport.outbox.give_target? v.persistenceServer? command x.outside
  cases htarget : x.transport.outbox.target? v.persistenceServer? with
  | none =>
    rw [htarget] at hstep hgive
    rw [← hgive]
    exact hstep
  | some server =>
    rw [htarget] at hstep hgive
    rw [← hgive]
    exact hstep.trans (Leads.of_step _ (.proceed v))

/-- Whoever tells the persistence service something does what `Transport.tellPersistence` tells. -/
theorem exists_tellPersistence {α : Type} [Message α] (h : x.Alone .nobody t o answers) (v : View)
    (command : α) (handled : Option Envelope) :
    ∃ x' : Traffic, Leads ({ x with outside := o.fresh.2 }.request
        (.give (.encode o.fresh.1 command t.origin) handled)) (x'.conclude handled) ∧
      x'.Alone .nobody (t.tellPersistence v command o).1 (t.tellPersistence v command o).2
        answers := by
  have hrequest := (h.withOutside o.fresh.2).request
    (.give (.encode o.fresh.1 command t.origin) handled)
  exact hrequest.exists_give v

theorem ends_keep (h : x.Alone .nobody t o answers) (v : View) (message : Envelope)
    (targets : List Peer) :
    let kept := if targets.isEmpty then (.ok (), t, o) else t.persist v message targets o
    (x.keep message targets).Ends kept.2 (answers ++ [kept.1]) := by
  rw [keep]
  split
  · exact (h.answer (.ok ())).ends
  · refine (leads_settle h.jobs _).ends ?_
    rw [settle, Transport.persist, h.outside]
    dsimp only
    cases o.send { message with persisted := true } targets with
    | mk result outside =>
      cases result with
      | error failure => exact ((h.withOutside outside).answer (.error failure)).ends
      | ok _ =>
        obtain ⟨x', hleads, halone⟩ := (h.withOutside outside).exists_tellPersistence v
          (⟨{ message with persisted := true }, targets.map Peer.id⟩ : Persist) none
        rw [← h.transport] at hleads
        exact hleads.ends (halone.answer (.ok ())).ends

theorem ends_ack_job (h : x.Alone .nobody t o answers) (message : Envelope) :
    (x.charge (.ack message)).Ends (t, (o.ack message).2) (answers ++ [(o.ack message).1]) := by
  refine (leads_settle h.jobs _).ends ?_
  rw [settle, h.outside]
  exact ((h.withOutside _).answer _).ends

theorem ends_stoppingAck_job (h : x.Alone .nobody t o answers) (sender : Origin) :
    let sent := o.fresh.2.send (.signal o.fresh.1 (Message.type StoppingAck) t.origin)
      [.live sender.sender sender.endPoint]
    (x.charge (.stoppingAck sender)).Ends (t, sent.2) (answers ++ [sent.1]) := by
  refine (leads_settle h.jobs _).ends ?_
  obtain rfl := h.transport
  rw [settle, h.outside]
  exact ((h.withOutside _).answer _).ends

/-- Whoever flushes sees the flush through. -/
theorem ends_flushing {taken leaving : List Envelope} {server : Peer}
    (h : x.Alone (.flushing taken ⟨server, leaving⟩) t o answers) (v : View) :
    let sent := t.outbox.sendAll server leaving o
    x.Ends ({ t with outbox := sent.1 }, sent.2) answers := by
  induction leaving generalizing x o with
  | nil =>
    refine (Leads.of_step x (.proceed v)).ends ?_
    rw [step, proceed, h.holder, h.transport, h.outside]
    exact (h.goOn_none ..).ends
  | cons command rest ih =>
    refine (Leads.of_step x (.proceed v)).ends ?_
    rw [step, proceed, h.holder, h.transport, h.outside, Outbox.sendAll]
    dsimp only [Outbox.stepFlush]
    cases o.send command [server] with
    | mk result outside =>
      cases result with
      | error failure => exact (h.goOn_none ..).ends
      | ok _ => exact ih (h.goOn_some ..)

/-- Whoever may have begun to flush does what `Outbox.finish` tells. -/
theorem ends_goOn (h : x.Alone holder t o answers) (v : View) (taken : List Envelope)
    (begun : Outbox × Option Flush × Outside) :
    (x.goOn taken begun).Ends
      ({ t with outbox := (Outbox.finish begun).1 }, (Outbox.finish begun).2) answers := by
  obtain ⟨outbox, flush?, outside⟩ := begun
  cases flush? with
  | none => exact (h.goOn_none taken outbox outside).ends
  | some flush => exact (h.goOn_some taken outbox flush outside).ends_flushing v

/-! ## What the parties do, undisturbed -/

/-- **To send a message** is `Transport.send`. -/
theorem ends_send (h : x.Alone .nobody t o answers) (v : View) (message : Envelope)
    (targets : List Peer) :
    let sent := t.send v message targets o
    (x.step (.send v message targets)).Ends sent.2 (answers ++ [sent.1]) := by
  rw [step, beginSend, Transport.send]
  generalize (targets.partition fun p ↦ v.isPersistent p.id) = parts
  obtain ⟨kept, others⟩ := parts
  cases message.persistent with
  | false =>
    refine (leads_settle h.jobs _).ends ?_
    rw [settle, h.outside]
    exact ((h.withOutside _).answer _).ends
  | true =>
    dsimp only
    cases hothers : others.isEmpty with
    | true => exact h.ends_keep v message kept
    | false =>
      refine (leads_settle h.jobs _).ends ?_
      rw [settle, h.outside]
      simp only [Bool.false_eq_true, if_false]
      cases o.send message others with
      | mk result outside =>
        cases result with
        | error failure => exact ((h.withOutside outside).answer (.error failure)).ends
        | ok _ => exact (h.withOutside outside).ends_keep v message kept

/-- **To be done with a message** is `Transport.ack`. -/
theorem ends_ack (h : x.Alone .nobody t o answers) (v : View) (message : Envelope) :
    let acked := t.ack v message o
    (x.step (.ack message)).Ends acked.2 (answers ++ [acked.1]) := by
  obtain rfl := h.transport
  rw [step, beginAck, Transport.ack, h.outside]
  cases x.transport.persistent && message.needsAck with
  | true =>
    obtain ⟨x', hleads, halone⟩ :=
      h.exists_tellPersistence v (⟨message.id⟩ : Handled) (some message)
    exact hleads.ends (halone.ends_ack_job message)
  | false => exact h.ends_ack_job message

/-- **A service that is about to stop** gets what `Transport.receiveStopping` gives. -/
theorem ends_stopping (h : x.Alone .nobody t o answers) (v : View) (sender : Origin) :
    let received := t.receiveStopping sender o
    ∃ result, received.2.2 = .done result ∧
      (x.step (.stopping sender)).Ends (received.1, received.2.1) (answers ++ [result]) := by
  refine ⟨_, rfl, ?_⟩
  have hrequest := (h.withOutside (o.note (.persistenceStopping sender.sender))).request
    (.stopping sender)
  rw [step, h.outside]
  refine (Leads.of_step _ (.proceed v)).ends ?_
  rw [step, proceed, hrequest.holder, hrequest.transport, hrequest.outside]
  exact (hrequest.goOn_none ..).ends_stoppingAck_job sender

/-- **To hear what became of a peer** is `Transport.hear`. -/
theorem ends_hear (h : x.Alone .nobody t o answers) (v : View) (update : Update) :
    (x.step (.hear update)).Ends (t.hear v update o) answers := by
  rw [step]
  split
  · have hrequest := h.request (.hear update)
    refine (Leads.of_step _ (.proceed v)).ends ?_
    rw [step, proceed, hrequest.holder, hrequest.transport, hrequest.outside]
    exact hrequest.ends_goOn v _ _
  · next hother =>
    have hsame : t.hear v update o = (t, o) := by
      simp [Transport.hear, Outbox.hear, Outbox.beginHear, Outbox.finish, hother]
    rw [hsame]
    exact h.ends

/-- **To make up for updates that were missed** is `Transport.catchUp`. -/
theorem ends_missed (h : x.Alone .nobody t o answers) (v : View) :
    (x.step .missed).Ends (t.catchUp v o) answers := by
  have hrequest := h.request .catchUp
  rw [step]
  refine (Leads.of_step _ (.proceed v)).ends ?_
  rw [step, proceed, hrequest.holder, hrequest.transport, hrequest.outside]
  exact hrequest.ends_goOn v _ _

end Alone

end Undisturbed

end Traffic

end ServiceBus.Durable
