import ServiceBus.Proofs.Durable.Backlog

/-!
# The order of commands

The commands for the persistence service are given one after the other, and one would expect the
service to get them in this order.  A flush keeps to it.  But whoever gives a command to a server
does not look at what waits, so that his command may go before older ones.

By `Traffic.passes_step` a command always leaves from right behind what waits.  So nothing is out of
order as long as nothing waits when a command is sent, and `Traffic.overtakes_iff` says when that
fails: a command has come to wait since the last flush began, and the next one is given to a server.
-/

set_option autoImplicit false

namespace ServiceBus.Durable

open Directory (View)

namespace Outbox

variable {b : Outbox} {o : Outside}

/-- Of some commands in hand the first are taken by the carrier, and the others come behind what
waits, or are still to be flushed. -/
def InTurn (b : Outbox) (inHand : List Envelope) (o : Outside)
    (outcome : Outbox × Option Flush × Outside) (sent : List Envelope) : Prop :=
  ∃ new after, outcome.2.2.carrier.parcels = o.carrier.parcels ++ new ∧ accepted new = sent ∧
    inHand = sent ++ after ∧ outcome.1.waiting ++ leavingOf outcome.2.1 = b.waiting ++ after

theorem inTurn_give (b : Outbox) (server? : Option Peer) (command : Envelope) (o : Outside) :
    b.InTurn [command] o ((b.give server? command o).1, none, (b.give server? command o).2)
      (if b.refuses server? command o then [] else [command]) := by
  rw [give, refuses]
  cases b.target? server? with
  | none => exact ⟨[], [command], (List.append_nil _).symm, rfl, rfl, List.append_nil _⟩
  | some server =>
    cases hfails : o.carrier.fails command.type with
    | true =>
      refine ⟨[⟨command, [server], true⟩], [command], ?_, rfl, rfl, ?_⟩ <;>
        simp [Outside.send, Outside.note, Carrier.send, leavingOf, hfails]
    | false =>
      refine ⟨[⟨command, [server], false⟩], [], ?_, rfl, rfl, ?_⟩ <;>
        simp [Outside.send, Carrier.send, leavingOf, hfails]

theorem inTurn_stepFlush (b : Outbox) (f : Flush) (o : Outside) :
    b.InTurn f.leaving o (b.stepFlush f o) (if cutsShort f o then [] else f.leaving.take 1) := by
  rw [stepFlush, cutsShort]
  cases f.leaving with
  | nil => exact ⟨[], [], (List.append_nil _).symm, rfl, rfl, rfl⟩
  | cons command rest =>
    cases hfails : o.carrier.fails command.type with
    | true =>
      refine ⟨[⟨command, [f.server], true⟩], command :: rest, ?_, ?_, ?_, ?_⟩ <;>
        simp [Outside.send, Outside.note, Carrier.send, leavingOf, accepted, hfails]
    | false =>
      refine ⟨[⟨command, [f.server], false⟩], rest, ?_, ?_, ?_, ?_⟩ <;>
        simp [Outside.send, Carrier.send, leavingOf, accepted, hfails]

/-- A flush that begins takes what waited, and nothing has been sent yet. -/
theorem Starts.inTurn {server? : Option Peer} {outcome : Outbox × Option Flush × Outside}
    (h : Starts b server? o outcome) : b.InTurn [] o outcome [] := by
  cases h with
  | nothing waiting carrier =>
    exact ⟨[], [], by simp [carrier], rfl, rfl, by simp [leavingOf, waiting]⟩
  | flush server_mem waiting carrier =>
    exact ⟨[], [], by simp [carrier], rfl, rfl, by simp [leavingOf, waiting]⟩

end Outbox

namespace Traffic

variable {x x' : Traffic} {v : View}

/-! ## What is sent at an occurrence -/

/-- The command that the carrier takes when the holder of the link goes on. -/
def sentOnProceed (x : Traffic) : List Envelope :=
  match x.holder with
  | .giving server command _ =>
    if x.transport.outbox.refuses (some server) command x.outside then [] else [command]
  | .flushing _ flush => if Outbox.cutsShort flush x.outside then [] else flush.leaving.take 1
  | _ => []

/-- The command for the persistence service that the carrier takes at an occurrence. -/
def sent (x : Traffic) : Occurrence → List Envelope
  | .proceed _ => x.sentOnProceed
  | _ => []

/-- From one traffic to another, commands come in behind those on their way, and the carrier takes
some that are right behind those that wait. -/
def Passes (x x' : Traffic) (sent : List Envelope) : Prop :=
  ∃ new after, x'.given = x.given ++ new ∧ x'.accepted = x.accepted ++ sent ∧
    x.pending ++ new = x.transport.outbox.waiting ++ (sent ++ after) ∧
    x'.pending = x.transport.outbox.waiting ++ after

/-- Commands may come in without any being sent. -/
theorem passes_nil {new : List Envelope} (given : x'.given = x.given ++ new)
    (accepted : x'.accepted = x.accepted) (pending : x'.pending = x.pending ++ new) :
    x.Passes x' [] := by
  have hbehind : x.pending ++ new = x.transport.outbox.waiting ++
      (x.holder.commands ++ x.line.flatMap Errand.commands ++ new) := by
    rw [Traffic.pending, List.append_assoc]
  exact ⟨new, _, given, accepted.trans (List.append_nil _).symm, hbehind, pending.trans hbehind⟩

theorem Passes.aside {x'' : Traffic} {sent : List Envelope} (h : x.Passes x' sent)
    (haside : x'.Aside x'') : x.Passes x'' sent := by
  obtain ⟨new, after, hgiven, haccepted, hbefore, hafter⟩ := h
  refine ⟨new, after, haside.given.trans hgiven, ?_, hbefore, ?_⟩
  · rw [Traffic.accepted, haside.handed]
    exact haccepted
  · rw [Traffic.pending, haside.transport, haside.holder, haside.line]
    exact hafter

/-- The holder of the link sends what he has in hand in its order. -/
theorem passes_goOn {inHand : List Envelope} {outcome : Outbox × Option Flush × Outside}
    {sent : List Envelope} (hcommands : x.holder.commands = inHand)
    (h : x.transport.outbox.InTurn inHand x.outside outcome sent) (taken : List Envelope) :
    x.Passes (x.goOn taken outcome) sent := by
  obtain ⟨new, after, hparcels, hnew, hinHand, hbehind⟩ := h
  refine ⟨[], after ++ x.line.flatMap Errand.commands, ?_, ?_, ?_, ?_⟩
  · rw [given_goOn, List.append_nil]
  · rw [accepted, handed_goOn hparcels, accepted_append, hnew, accepted]
  · rw [List.append_nil, pending, hcommands, hinHand, List.append_assoc]
  · rw [pending_goOn, hbehind, List.append_assoc]

theorem passes_deliver {command : Envelope} (hcommands : x.holder.commands = [command])
    (server? : Option Peer) (handled : Option Envelope) :
    x.Passes (x.deliver server? command handled)
      (if x.transport.outbox.refuses server? command x.outside then [] else [command]) :=
  (passes_goOn hcommands (x.transport.outbox.inTurn_give server? command x.outside) []).aside
    (aside_conclude _ handled)

theorem passes_proceed (x : Traffic) (v : View) : x.Passes (x.proceed v) x.sentOnProceed := by
  rw [proceed, sentOnProceed]
  cases hholder : x.holder with
  | nobody => exact passes_nil (List.append_nil _).symm rfl (List.append_nil _).symm
  | arrived errand =>
    cases errand with
    | give command handled =>
      have hcommands : x.holder.commands = [command] := by rw [hholder]; rfl
      dsimp only
      cases x.transport.outbox.target? v.persistenceServer? with
      | some server =>
        refine passes_nil (List.append_nil _).symm rfl ?_
        rw [List.append_nil, pending, pending, hcommands]
        rfl
      | none =>
        have hnone := passes_deliver hcommands none handled
        rwa [Outbox.refuses_none, if_pos rfl] at hnone
    | stopping sender =>
      have hstarts : x.transport.outbox.Starts none x.outside
          ({ x.transport.outbox with down := true }, none, x.outside) := .nothing rfl rfl
      exact (passes_goOn (by rw [hholder]; rfl) hstarts.inTurn []).aside (aside_charge _ _)
    | hear update =>
      exact passes_goOn (by rw [hholder]; rfl) (Outbox.starts_beginHear ..).inTurn _
    | catchUp =>
      exact passes_goOn (by rw [hholder]; rfl) (Outbox.starts_beginCatchUp ..).inTurn _
  | giving server command handled => exact passes_deliver (by rw [hholder]; rfl) _ handled
  | flushing taken flush =>
    exact passes_goOn (by rw [hholder]; rfl) (Outbox.inTurn_stepFlush ..) taken

/-- **A command leaves from right behind what waits**, at every occurrence. -/
theorem passes_step (hidle : x.holder = .nobody → x.line = []) (occurrence : Occurrence) :
    x.Passes (x.step occurrence) (x.sent occurrence) := by
  by_cases hproceed : ∃ v, occurrence = .proceed v
  · obtain ⟨v, rfl⟩ := hproceed
    exact x.passes_proceed v
  · have hproceed' : ∀ v, occurrence ≠ .proceed v := fun v hv ↦ hproceed ⟨v, hv⟩
    have hsent : x.sent occurrence = [] := by
      cases occurrence with
      | proceed v => exact absurd rfl (hproceed' v)
      | _ => rfl
    have hsame : x.Passes x [] :=
      passes_nil (List.append_nil _).symm rfl (List.append_nil _).symm
    obtain ⟨x', haside, hstep | ⟨errand, hstep⟩⟩ := x.step_eq_or hproceed'
    · rw [hstep, hsent]
      exact hsame.aside haside
    · have hidle' : x'.holder = .nobody → x'.line = [] := by
        rw [haside.holder, haside.line]
        exact hidle
      rw [hstep, hsent]
      refine passes_nil ((given_request ..).trans (congrArg (· ++ _) haside.given)) ?_ ?_
      · rw [accepted, handed_request, haside.handed, accepted]
      · rw [pending_request hidle', pending, pending, haside.transport, haside.holder, haside.line]

/-! ## Overtaking -/

/-- A command is sent while an older one waits. -/
def Overtakes (x : Traffic) (occurrence : Occurrence) : Prop :=
  ∃ command older, (x.step occurrence).accepted = x.accepted ++ [command] ∧
    older ∈ x.transport.outbox.waiting ∧ [older, command].Sublist (x.step occurrence).given

/-- No command overtakes another one in a run. -/
def InOrder : Traffic → List Occurrence → Prop
  | _, [] => True
  | x, occurrence :: occurrences =>
    ¬ x.Overtakes occurrence ∧ (x.step occurrence).InOrder occurrences

instance (x : Traffic) (occurrence : Occurrence) : Decidable (x.Overtakes occurrence) :=
  decidable_of_iff (∃ command ∈ (x.step occurrence).accepted, ∃ older ∈ x.transport.outbox.waiting,
      (x.step occurrence).accepted = x.accepted ++ [command] ∧
        [older, command].Sublist (x.step occurrence).given)
    ⟨fun ⟨command, _, older, hmem, hsent, hgiven⟩ ↦ ⟨command, older, hsent, hmem, hgiven⟩,
      fun ⟨command, older, hsent, hmem, hgiven⟩ ↦
        ⟨command, by simp [hsent], older, hmem, hsent, hgiven⟩⟩

instance decidableInOrder : (x : Traffic) → (occurrences : List Occurrence) →
    Decidable (x.InOrder occurrences)
  | _, [] => isTrue trivial
  | x, occurrence :: occurrences =>
    have := decidableInOrder (x.step occurrence) occurrences
    inferInstanceAs (Decidable (¬ x.Overtakes occurrence ∧ _))

/-- Whoever has the link gives a command to a server, and the carrier takes it. -/
def gives (x : Traffic) : Occurrence → Bool
  | .proceed _ =>
    match x.holder with
    | .giving server command _ => !x.transport.outbox.refuses (some server) command x.outside
    | _ => false
  | _ => false

theorem sent_eq_nil_or (x : Traffic) (occurrence : Occurrence) :
    x.sent occurrence = [] ∨ ∃ command, x.sent occurrence = [command] := by
  cases occurrence with
  | proceed v =>
    rw [sent, sentOnProceed]
    split
    · split
      · exact Or.inl rfl
      · exact Or.inr ⟨_, rfl⟩
    · next flush _ =>
      split
      · exact Or.inl rfl
      · cases flush.leaving with
        | nil => exact Or.inl rfl
        | cons command rest => exact Or.inr ⟨command, rfl⟩
    · exact Or.inl rfl
  | _ => exact Or.inl rfl

/-- Whatever is sent while something waits overtakes it. -/
theorem overtakes_iff_sent {resolved : Peer → Prop} (h : x.Orderly resolved)
    (occurrence : Occurrence) :
    x.Overtakes occurrence ↔ x.sent occurrence ≠ [] ∧ x.transport.outbox.waiting ≠ [] := by
  obtain ⟨new, after, hgiven, haccepted, hbehind, -⟩ := x.passes_step h.idle occurrence
  constructor
  · rintro ⟨command, older, hcommand, hmem, -⟩
    have hsent : x.sent occurrence = [command] :=
      List.append_cancel_left (haccepted.symm.trans hcommand)
    exact ⟨by simp [hsent], List.ne_nil_of_mem hmem⟩
  · rintro ⟨hsent, hwaiting⟩
    obtain ⟨command, hcommand⟩ := (x.sent_eq_nil_or occurrence).resolve_left hsent
    obtain ⟨older, hmem⟩ := List.exists_mem_of_ne_nil _ hwaiting
    refine ⟨command, older, hcommand ▸ haccepted, hmem, ?_⟩
    have hpair : [older, command].Sublist (x.transport.outbox.waiting ++ ([command] ++ after)) :=
      (List.singleton_sublist.mpr hmem).append (List.sublist_append_left _ _)
    rw [← hcommand, ← hbehind] at hpair
    rw [hgiven]
    exact hcommand ▸ hpair.trans (h.order.append_right new)

/-- A flush overtakes nothing, since nothing waits while it is going on. -/
theorem sent_ne_nil_iff_gives (h : x.Intact) (occurrence : Occurrence) :
    x.sent occurrence ≠ [] ∧ x.transport.outbox.waiting ≠ [] ↔
      x.gives occurrence = true ∧ x.transport.outbox.waiting ≠ [] := by
  refine and_congr_left fun hwaiting ↦ ?_
  cases occurrence with
  | proceed v =>
    rw [sent, sentOnProceed, gives]
    cases hholder : x.holder with
    | giving server command handled =>
      cases x.transport.outbox.refuses (some server) command x.outside <;> simp
    | flushing taken flush => exact absurd (h taken flush hholder).1 hwaiting
    | _ => simp
  | _ => simp [sent, gives]

/-- What is not out of order stays so if nothing is overtaken. -/
theorem Passes.given_eq {sent : List Envelope} (h : x.Passes x' sent)
    (horder : x.given = x.accepted ++ x.pending)
    (hsent : sent = [] ∨ x.transport.outbox.waiting = []) :
    x'.given = x'.accepted ++ x'.pending := by
  obtain ⟨new, after, hgiven, haccepted, hbehind, hafter⟩ := h
  rw [hgiven, haccepted, hafter, horder, List.append_assoc, hbehind]
  obtain rfl | hnone := hsent
  · simp
  · simp [hnone]

/-- In a run in which no command overtakes another one, all are sent in their order. -/
theorem InOrder.given_eq {resolved : Peer → Prop} {occurrences : List Occurrence}
    (h : x.InOrder occurrences) (horderly : x.Orderly resolved)
    (hresolved : ∀ server, resolved server) (horder : x.given = x.accepted ++ x.pending) :
    (x.run occurrences).given = (x.run occurrences).accepted ++ (x.run occurrences).pending := by
  induction occurrences generalizing x with
  | nil => exact horder
  | cons occurrence occurrences ih =>
    obtain ⟨hnot, hrest⟩ := h
    rw [overtakes_iff_sent horderly, not_and_or, not_not, not_not] at hnot
    exact ih hrest (horderly.step fun v _ server _ ↦ hresolved server)
      ((x.passes_step horderly.idle occurrence).given_eq horder hnot)

theorem orderly_run_start (settings : Settings) (origin : Origin) (outside : Outside)
    (occurrences : List Occurrence) :
    ((start settings origin outside).run occurrences).Orderly fun _ ↦ True :=
  (orderly_start _ settings origin outside).run fun _ _ _ _ ↦ trivial

/-- **When a command goes before an older one.**  In every run a command is sent while an older one
waits just if whoever has the link gives it to a server, and some command came to wait after the
last time at which all that waited were taken out.  So long as this does not happen, the commands
that the carrier has taken, followed by those that are on their way, are all commands in the order
in which they were given. -/
theorem overtakes_iff (settings : Settings) (origin : Origin) (outside : Outside)
    (occurrences : List Occurrence) :
    let x₀ := start settings origin outside
    let x := x₀.run occurrences
    (∀ occurrence, x.Overtakes occurrence ↔
      x.gives occurrence = true ∧ (x₀.marks occurrences).getLast? = some .setback) ∧
    (x₀.InOrder occurrences → x.given = x.accepted ++ x.pending) := by
  intro x₀ x
  have horderly := orderly_run_start settings origin outside occurrences
  have hintact : x.Intact := Intact.run (fun taken flush hholder ↦ by cases hholder) occurrences
  have hstart : x₀.transport.outbox.waiting = [] ↔ none ≠ some Mark.setback :=
    iff_of_true rfl nofun
  have hwaiting : x.transport.outbox.waiting ≠ [] ↔
      (x₀.marks occurrences).getLast? = some .setback := by
    rw [ne_eq, waiting_run hstart, Option.or_none, not_not]
  refine ⟨fun occurrence ↦ ?_, fun h ↦ ?_⟩
  · rw [overtakes_iff_sent horderly, sent_ne_nil_iff_gives hintact, hwaiting]
  · exact h.given_eq (orderly_start (fun _ ↦ True) settings origin outside) (fun _ ↦ trivial) rfl

/-- Nothing has happened yet, and messages are kept for the local peer. -/
def keeping (verdicts : List Bool) : Traffic :=
  start { persistent := true } ⟨⟨"Abc.Self.0"⟩, ""⟩ { carrier := { verdicts } }

/-- A message of which the persistence service has a copy was handled, and whoever tells that has
the link. -/
def handles (v : View) : List Occurrence :=
  [.ack ⟨.fresh 9, ⟨"Tests.FakeEvent"⟩, [], ⟨⟨"Abc.P.0"⟩, ""⟩, true, true, false⟩, .proceed v]

/-- Two commands wait while the service is stopped; it starts, and they are flushed. -/
def flushesBoth : List Occurrence :=
  [.stopping ⟨.persistence "0", ""⟩, .proceed oneServer] ++ handles oneServer ++
    handles oneServer ++
    [.hear ⟨.persistence "0", .started⟩, .proceed oneServer, .proceed oneServer, .proceed oneServer]

/-- The two commands that waited are sent in their order. -/
theorem inOrder_flushesBoth :
    (keeping []).InOrder flushesBoth ∧ ((keeping []).run flushesBoth).accepted.length = 2 ∧
      ((keeping []).run flushesBoth).given = ((keeping []).run flushesBoth).accepted ++
        ((keeping []).run flushesBoth).pending := by
  have horder : (keeping []).InOrder flushesBoth := by decide +kernel
  exact ⟨horder, by decide +kernel, (overtakes_iff _ _ _ flushesBoth).2 horder⟩

/-- The carrier fails at the first command, and then the second one is given. -/
def failsOnce : List Occurrence :=
  handles oneServer ++ [.proceed oneServer] ++ handles oneServer

/-- No server is known when the first command is given, and one is known at the second. -/
def knowsLate : List Occurrence :=
  handles { oneServer with handlers := fun _ ↦ [] } ++ handles oneServer

/-- **A command may overtake another one.**  So it is if the carrier failed at the older one, and
also if no server was known when that was given. -/
theorem overtakes_failsOnce_knowsLate :
    ((keeping [true]).run failsOnce).Overtakes (.proceed oneServer) ∧
      ((keeping []).run knowsLate).Overtakes (.proceed oneServer) := by
  decide +kernel

end Traffic

end ServiceBus.Durable
