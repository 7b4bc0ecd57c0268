import ServiceBus.Proofs.Durable.Handling
import ServiceBus.Proofs.Durable.Traffic

/-!
# No command is lost

A command for the persistence service is given to the carrier, or it waits in the outbox, or
somebody has it in hand; it moves between these places, and no move loses it or makes two of it.

Each function of the outbox is described by `Outbox.Handles`: something of what was at hand was
taken by the carrier, and the rest is at hand as before, in the same order.  `Traffic.Orderly` is
the account of all commands, which every occurrence keeps, and `Traffic.conserved` reads it off for
the moments at which nobody has the link.
-/

set_option autoImplicit false

namespace ServiceBus.Durable

open Directory (View)

/-! ## The account of all commands -/

namespace Traffic

/-- The commands of the link that the carrier has taken, in the order in which it took them. -/
def accepted (x : Traffic) : List Envelope := Durable.accepted x.handed

/-- The commands that are on their way: those that wait in the outbox, those that the holder of the
link has in hand, and those that stand in line. -/
def pending (x : Traffic) : List Envelope :=
  x.transport.outbox.waiting ++ (x.holder.commands ++ x.line.flatMap Errand.commands)

/-- All commands are accounted for.  What is `resolved` is the servers that the directory has
named. -/
structure Orderly (resolved : Peer → Prop) (x : Traffic) : Prop where
  /-- What was given was taken by the carrier, or is on its way. -/
  balance : x.given.Perm (x.accepted ++ x.pending)
  /-- What is on its way is in the order in which it was given. -/
  order : x.pending.Sublist x.given
  /-- Nobody stands in line for a link that nobody has. -/
  idle : x.holder = .nobody → x.line = []
  /-- Whatever was handed over, the carrier was given. -/
  carried : x.handed.Sublist x.outside.carrier.parcels
  /-- It was handed over for a server that the directory has named. -/
  targets : ∀ p ∈ x.handed, ∃ server, resolved server ∧ p.targets = [server]
  /-- The holder sends to such a server. -/
  server : ∀ server ∈ x.holder.server?, resolved server

/-- Two traffics that differ by no more than what goes on besides the link. -/
structure Aside (x x' : Traffic) : Prop where
  transport : x'.transport = x.transport
  holder : x'.holder = x.holder
  line : x'.line = x.line
  given : x'.given = x.given
  handed : x'.handed = x.handed
  parcels : x.outside.carrier.parcels <+: x'.outside.carrier.parcels

variable {resolved : Peer → Prop} {x x' : Traffic}

theorem Orderly.aside (h : x.Orderly resolved) (haside : x.Aside x') : x'.Orderly resolved := by
  obtain ⟨htransport, hholder, hline, hgiven, hhanded, hparcels⟩ := haside
  have hpending : x'.pending = x.pending := by rw [pending, pending, htransport, hholder, hline]
  have haccepted : x'.accepted = x.accepted := by rw [accepted, accepted, hhanded]
  constructor
  · rw [hgiven, haccepted, hpending]
    exact h.balance
  · rw [hgiven, hpending]
    exact h.order
  · rw [hholder, hline]
    exact h.idle
  · rw [hhanded]
    exact h.carried.trans hparcels.sublist
  · rw [hhanded]
    exact h.targets
  · rw [hholder]
    exact h.server

/-! ### The link -/

@[simp]
theorem transport_request (x : Traffic) (errand : Errand) :
    (x.request errand).transport = x.transport := by
  unfold request
  split <;> rfl

@[simp]
theorem outside_request (x : Traffic) (errand : Errand) :
    (x.request errand).outside = x.outside := by
  unfold request
  split <;> rfl

@[simp]
theorem given_request (x : Traffic) (errand : Errand) :
    (x.request errand).given = x.given ++ errand.commands := by
  unfold request
  split <;> rfl

@[simp]
theorem handed_request (x : Traffic) (errand : Errand) :
    (x.request errand).handed = x.handed := by
  unfold request
  split <;> rfl

theorem holder_request (x : Traffic) (errand : Errand) :
    (x.request errand).holder = .arrived errand ∨
      x.holder ≠ .nobody ∧ (x.request errand).holder = x.holder := by
  unfold request
  cases x.holder with
  | nobody => exact Or.inl rfl
  | _ => exact Or.inr ⟨Holder.noConfusion, rfl⟩

/-- Whoever comes for the link brings his commands. -/
theorem pending_request (h : x.holder = .nobody → x.line = []) (errand : Errand) :
    (x.request errand).pending = x.pending ++ errand.commands := by
  rw [request, pending, pending]
  cases hholder : x.holder with
  | nobody => simp [h hholder, Holder.commands]
  | _ => simp

theorem Orderly.request (h : x.Orderly resolved) (errand : Errand) :
    (x.request errand).Orderly resolved := by
  have haccepted : (x.request errand).accepted = x.accepted := by
    rw [accepted, accepted, handed_request]
  constructor
  · rw [given_request, haccepted, pending_request h.idle, ← List.append_assoc]
    exact h.balance.append_right errand.commands
  · rw [given_request, pending_request h.idle]
    exact h.order.append (List.Sublist.refl errand.commands)
  · intro hnobody
    obtain hholder | ⟨hne, hholder⟩ := x.holder_request errand
    · cases hholder.symm.trans hnobody
    · exact absurd (hholder.symm.trans hnobody) hne
  · rw [handed_request, outside_request]
    exact h.carried
  · rw [handed_request]
    exact h.targets
  · intro server hserver
    obtain hholder | ⟨-, hholder⟩ := x.holder_request errand
    · rw [hholder] at hserver
      cases hserver
    · exact h.server server (hholder ▸ hserver)

/-- Who has the link next, and who stands in line then. -/
theorem commands_release (x : Traffic) :
    x.release.holder.commands ++ x.release.line.flatMap Errand.commands =
      x.line.flatMap Errand.commands := by
  rw [release]
  cases x.line <;> simp [Holder.commands]

theorem idle_release (h : x.release.holder = .nobody) : x.release.line = [] := by
  rw [release] at h ⊢
  cases hline : x.line with
  | nil => rfl
  | cons errand line =>
    rw [hline] at h
    cases h

theorem server?_release (x : Traffic) : x.release.holder.server? = none := by
  rw [release]
  cases x.line <;> rfl

variable {outcome : Outbox × Option Flush × Outside} {taken : List Envelope}

theorem outbox_goOn (x : Traffic) (taken : List Envelope)
    (outcome : Outbox × Option Flush × Outside) :
    (x.goOn taken outcome).transport.outbox = outcome.1 := by
  obtain ⟨outbox, flush? | flush, outside⟩ := outcome
  · rw [goOn, release]
    split <;> rfl
  · rfl

theorem outside_goOn (x : Traffic) (taken : List Envelope)
    (outcome : Outbox × Option Flush × Outside) :
    (x.goOn taken outcome).outside = outcome.2.2 := by
  obtain ⟨outbox, flush? | flush, outside⟩ := outcome
  · rw [goOn, release]
    split <;> rfl
  · rfl

theorem given_goOn (x : Traffic) (taken : List Envelope)
    (outcome : Outbox × Option Flush × Outside) : (x.goOn taken outcome).given = x.given := by
  obtain ⟨outbox, flush? | flush, outside⟩ := outcome
  · rw [goOn, release]
    split <;> rfl
  · rfl

/-- What the holder gives to the carrier is handed over. -/
theorem handed_goOn {new : List Parcel}
    (h : outcome.2.2.carrier.parcels = x.outside.carrier.parcels ++ new) (taken : List Envelope) :
    (x.goOn taken outcome).handed = x.handed ++ new := by
  have hdrop : outcome.2.2.carrier.parcels.drop x.outside.carrier.parcels.length = new := by
    rw [h, List.drop_left]
  obtain ⟨outbox, flush? | flush, outside⟩ := outcome
  · rw [goOn, release]
    split <;> exact congrArg (x.handed ++ ·) hdrop
  · exact congrArg (x.handed ++ ·) hdrop

theorem pending_goOn (x : Traffic) (taken : List Envelope)
    (outcome : Outbox × Option Flush × Outside) :
    (x.goOn taken outcome).pending =
      outcome.1.waiting ++ Outbox.leavingOf outcome.2.1 ++ x.line.flatMap Errand.commands := by
  rw [pending, outbox_goOn, List.append_assoc]
  congr 1
  obtain ⟨outbox, flush? | flush, outside⟩ := outcome
  · exact commands_release (x.carry outbox outside)
  · rfl

/-- What the holder does, if it is what a function of the outbox does, keeps the account. -/
theorem Orderly.goOn (h : x.Orderly resolved) {server? : Option Peer} {new : List Parcel}
    (hhandles : x.transport.outbox.Handles x.holder.commands x.outside server? outcome new)
    (hserver : ∀ server ∈ server?, resolved server) (taken : List Envelope) :
    (x.goOn taken outcome).Orderly resolved := by
  have hpending : x.pending = x.transport.outbox.waiting ++ x.holder.commands ++
      x.line.flatMap Errand.commands := by
    rw [pending, List.append_assoc]
  have hhanded := handed_goOn hhandles.carried taken
  have haccepted : (x.goOn taken outcome).accepted = x.accepted ++ Durable.accepted new := by
    rw [accepted, hhanded, accepted_append, accepted]
  have hleaves := hhandles.leaves.append_right (x.line.flatMap Errand.commands)
  rw [← hpending, ← x.pending_goOn taken outcome] at hleaves
  constructor
  · rw [given_goOn, haccepted, List.append_assoc]
    exact h.balance.trans (hleaves.perm.append_left x.accepted)
  · rw [given_goOn]
    exact hleaves.sublist.trans h.order
  · obtain ⟨outbox, flush? | flush, outside⟩ := outcome
    · exact idle_release
    · exact fun hholder ↦ by cases hholder
  · rw [hhanded, outside_goOn, hhandles.carried]
    exact h.carried.append (List.Sublist.refl new)
  · intro p hp
    rw [hhanded, List.mem_append] at hp
    obtain hp | hp := hp
    · exact h.targets p hp
    · obtain ⟨server, hmem, htargets⟩ := hhandles.targets p hp
      exact ⟨server, hserver server hmem, htargets⟩
  · obtain ⟨outbox, flush? | flush, outside⟩ := outcome
    · intro server hmem
      have hnone : ((x.carry outbox outside).release).holder.server? = none := server?_release _
      rw [Traffic.goOn, hnone] at hmem
      cases hmem
    · intro server hmem
      obtain rfl := Option.some.inj hmem
      exact hserver _ (hhandles.server flush rfl)

/-- Whoever has nothing in hand, and at most begins to flush, keeps the account. -/
theorem Orderly.goOn_of_starts (h : x.Orderly resolved) {server? : Option Peer}
    (hcommands : x.holder.commands = [])
    (hstarts : x.transport.outbox.Starts server? x.outside outcome)
    (hserver : ∀ server ∈ server?, resolved server) (taken : List Envelope) :
    (x.goOn taken outcome).Orderly resolved := by
  have hhandles := hstarts.handles
  rw [← hcommands] at hhandles
  exact h.goOn hhandles hserver taken

/-! ### Occurrences -/

theorem aside_refl (x : Traffic) : x.Aside x := ⟨rfl, rfl, rfl, rfl, rfl, List.prefix_refl _⟩

theorem aside_conclude (x : Traffic) (handled : Option Envelope) :
    x.Aside (x.conclude handled) := by
  cases handled <;> exact ⟨rfl, rfl, rfl, rfl, rfl, List.prefix_refl _⟩

theorem aside_keep (x : Traffic) (message : Envelope) (targets : List Peer) :
    x.Aside (x.keep message targets) := by
  rw [keep]
  split <;> exact ⟨rfl, rfl, rfl, rfl, rfl, List.prefix_refl _⟩

theorem Aside.trans {x'' : Traffic} (h : x.Aside x') (h' : x'.Aside x'') : x.Aside x'' :=
  ⟨h'.transport.trans h.transport, h'.holder.trans h.holder, h'.line.trans h.line,
    h'.given.trans h.given, h'.handed.trans h.handed, h.parcels.trans h'.parcels⟩

theorem aside_withOutside {o : Outside} (h : x.outside.carrier.parcels <+: o.carrier.parcels) :
    x.Aside { x with outside := o } :=
  ⟨rfl, rfl, rfl, rfl, rfl, h⟩

theorem aside_fresh (x : Traffic) : x.Aside { x with outside := x.outside.fresh.2 } :=
  aside_withOutside (List.prefix_refl _)

/-- Whatever is sent besides the link, the carrier was given. -/
theorem aside_send {o : Outside} {message : Envelope} {targets : List Peer}
    {result : Except Failure Unit} (h : x.outside.send message targets = (result, o)) :
    x.Aside { x with outside := o } := by
  refine aside_withOutside ?_
  cases result with
  | ok _ => exact ⟨_, (Outside.parcels_of_send_ok h).symm⟩
  | error _ => exact ⟨_, (Outside.parcels_of_send_error h).symm⟩

theorem aside_answer (x : Traffic) (result : Except Failure Unit) : x.Aside (x.answer result) :=
  ⟨rfl, rfl, rfl, rfl, rfl, List.prefix_refl _⟩

theorem aside_charge (x : Traffic) (job : Job) : x.Aside (x.charge job) :=
  ⟨rfl, rfl, rfl, rfl, rfl, List.prefix_refl _⟩

/-- A job is done besides the link; after that, somebody may come for the link. -/
theorem settle_eq_or (x : Traffic) (job : Job) :
    ∃ x', x.Aside x' ∧ (x.settle job = x' ∨ ∃ errand, x.settle job = x'.request errand) := by
  cases job with
  | plain message targets =>
    exact ⟨_, (aside_send rfl).trans (aside_answer _ _), Or.inl rfl⟩
  | others message others kept =>
    rw [settle]
    split
    · next hsend => exact ⟨_, (aside_send hsend).trans (aside_answer _ _), Or.inl rfl⟩
    · next hsend => exact ⟨_, (aside_send hsend).trans (aside_keep _ _ _), Or.inl rfl⟩
  | kept message targets =>
    rw [settle]
    dsimp only
    split
    · next hsend => exact ⟨_, (aside_send hsend).trans (aside_answer _ _), Or.inl rfl⟩
    · next hsend => exact ⟨_, (aside_send hsend).trans (aside_fresh _), Or.inr ⟨_, rfl⟩⟩
  | ack message =>
    have hack : x.Aside { x with outside := (x.outside.ack message).2 } :=
      aside_withOutside (List.prefix_refl _)
    exact ⟨_, hack.trans (aside_answer _ _), Or.inl rfl⟩
  | stoppingAck sender =>
    exact ⟨_, (aside_fresh x).trans ((aside_send rfl).trans (aside_answer _ _)), Or.inl rfl⟩

/-- What others than the holder do goes on besides the link, or somebody comes for the link. -/
theorem step_eq_or (x : Traffic) {occurrence : Occurrence} (h : ∀ v, occurrence ≠ .proceed v) :
    ∃ x', x.Aside x' ∧
      (x.step occurrence = x' ∨ ∃ errand, x.step occurrence = x'.request errand) := by
  cases occurrence with
  | send v message targets =>
    refine ⟨_, ?_, Or.inl rfl⟩
    rw [step, beginSend]
    split
    · exact aside_charge x _
    · dsimp only
      split
      · exact aside_keep x _ _
      · exact aside_charge x _
  | ack message =>
    rw [step, beginAck]
    split
    · exact ⟨_, aside_fresh x, Or.inr ⟨_, rfl⟩⟩
    · exact ⟨_, aside_charge x _, Or.inl rfl⟩
  | stopping sender =>
    have hnote : x.Aside { x with
        outside := x.outside.note (.persistenceStopping sender.sender) } :=
      aside_withOutside (List.prefix_refl _)
    exact ⟨_, hnote, Or.inr ⟨_, rfl⟩⟩
  | hear update =>
    rw [step]
    split
    · exact ⟨x, aside_refl x, Or.inr ⟨_, rfl⟩⟩
    · exact ⟨x, aside_refl x, Or.inl rfl⟩
  | missed => exact ⟨x, aside_refl x, Or.inr ⟨_, rfl⟩⟩
  | settle place =>
    rw [step]
    split
    · next job _ =>
      obtain ⟨x', haside, hsettle⟩ := ({ x with jobs := x.jobs.eraseIdx place }).settle_eq_or job
      have haside' : x.Aside x' := ⟨haside.transport, haside.holder, haside.line, haside.given,
        haside.handed, haside.parcels⟩
      exact ⟨x', haside', hsettle⟩
    · exact ⟨x, aside_refl x, Or.inl rfl⟩
  | proceed v => exact absurd rfl (h v)

/-- What one gives on an errand is for the server, if the directory names one. -/
theorem Orderly.deliver (h : x.Orderly resolved) {server? : Option Peer} {command : Envelope}
    (hcommands : x.holder.commands = [command]) (hserver : ∀ server ∈ server?, resolved server)
    (handled : Option Envelope) : (x.deliver server? command handled).Orderly resolved := by
  obtain ⟨new, hhandles⟩ := x.transport.outbox.exists_handles_give server? command x.outside
  rw [← hcommands] at hhandles
  exact (h.goOn hhandles hserver []).aside (aside_conclude _ handled)

/-- What the holder does keeps the account. -/
theorem Orderly.proceed (h : x.Orderly resolved) {v : View}
    (hv : ∀ server ∈ v.persistenceServer?, resolved server) :
    (x.proceed v).Orderly resolved := by
  rw [Traffic.proceed]
  split
  · exact h
  · next command handled hholder =>
    have hcommands : x.holder.commands = [command] := by rw [hholder]; rfl
    split
    · next server htarget =>
      have hpending : pending { x with holder := .giving server command handled } = x.pending := by
        rw [pending, pending, hcommands]
        rfl
      refine ⟨hpending ▸ h.balance, hpending ▸ h.order, ?_, h.carried, h.targets, ?_⟩
      · exact fun hnobody ↦ by cases hnobody
      intro server' hserver'
      obtain rfl := Option.some.inj hserver'
      exact hv _ (Outbox.mem_of_target? htarget)
    · exact h.deliver hcommands (by simp) handled
  · next sender hholder =>
    have hcommands : x.holder.commands = [] := by rw [hholder]; rfl
    have hstarts : x.transport.outbox.Starts none x.outside
        ({ x.transport.outbox with down := true }, none, x.outside) := .nothing rfl rfl
    exact (h.goOn_of_starts hcommands hstarts (by simp) []).aside (aside_charge _ _)
  · next update hholder =>
    have hcommands : x.holder.commands = [] := by rw [hholder]; rfl
    exact h.goOn_of_starts hcommands (Outbox.starts_beginHear ..) hv _
  · next hholder =>
    have hcommands : x.holder.commands = [] := by rw [hholder]; rfl
    exact h.goOn_of_starts hcommands (Outbox.starts_beginCatchUp ..) hv _
  · next server command handled hholder =>
    have hcommands : x.holder.commands = [command] := by rw [hholder]; rfl
    refine h.deliver hcommands ?_ handled
    intro server' hserver'
    exact h.server server' (by rw [hholder]; exact hserver')
  · next taken flush hholder =>
    obtain ⟨new, hhandles⟩ := x.transport.outbox.exists_handles_stepFlush flush x.outside
    rw [show flush.leaving = x.holder.commands by rw [hholder]; rfl] at hhandles
    refine h.goOn hhandles ?_ taken
    intro server' hserver'
    exact h.server server' (by rw [hholder]; exact hserver')

/-- **Every occurrence keeps the account.** -/
theorem Orderly.step (h : x.Orderly resolved) {occurrence : Occurrence}
    (hv : ∀ v, occurrence = .proceed v → ∀ server ∈ v.persistenceServer?, resolved server) :
    (x.step occurrence).Orderly resolved := by
  by_cases hproceed : ∃ v, occurrence = .proceed v
  · obtain ⟨v, rfl⟩ := hproceed
    exact h.proceed (hv v rfl)
  · obtain ⟨x', haside, hstep | ⟨errand, hstep⟩⟩ :=
      x.step_eq_or fun v hoccurrence ↦ hproceed ⟨v, hoccurrence⟩
    · rw [hstep]
      exact h.aside haside
    · rw [hstep]
      exact (h.aside haside).request errand

theorem orderly_start (resolved : Peer → Prop) (settings : Settings) (origin : Origin)
    (outside : Outside) : (start settings origin outside).Orderly resolved :=
  ⟨.refl _, .refl _, fun _ ↦ rfl, List.nil_sublist _, fun _ hp ↦ (by cases hp),
    fun _ hserver ↦ (by cases hserver)⟩

/-- So does every run. -/
theorem Orderly.run (h : x.Orderly resolved) {occurrences : List Occurrence}
    (hv : ∀ v, .proceed v ∈ occurrences → ∀ server ∈ v.persistenceServer?, resolved server) :
    (x.run occurrences).Orderly resolved := by
  induction occurrences generalizing x with
  | nil => exact h
  | cons occurrence occurrences ih =>
    refine ih (h.step fun v hoccurrence ↦ hv v ?_) fun v hmem ↦ hv v (List.mem_cons_of_mem _ hmem)
    rw [hoccurrence]
    exact List.mem_cons_self

/-! ## Flushes -/

variable {x : Traffic} {outcome : Outbox × Option Flush × Outside} {taken : List Envelope}

/-- A flush that is going on has sent what it was begun with up to what is leaving, and nothing
waits meanwhile. -/
def Intact (x : Traffic) : Prop :=
  ∀ taken flush, x.holder = .flushing taken flush → x.transport.outbox.waiting = [] ∧
    ∃ sent, taken = sent ++ flush.leaving ∧ sent <:+ x.accepted

theorem not_flushing_release (x : Traffic) (taken : List Envelope) (flush : Flush) :
    x.release.holder ≠ .flushing taken flush := by
  rw [release]
  cases x.line <;> exact Holder.noConfusion

theorem holder_goOn (x : Traffic) (taken : List Envelope)
    (outcome : Outbox × Option Flush × Outside) {taken' : List Envelope} {flush : Flush}
    (h : (x.goOn taken outcome).holder = .flushing taken' flush) :
    taken' = taken ∧ flush ∈ outcome.2.1 := by
  obtain ⟨outbox, flush? | flush', outside⟩ := outcome
  · exact absurd h (not_flushing_release _ _ _)
  · cases h
    exact ⟨rfl, rfl⟩

theorem not_flushing_goOn_none (x : Traffic) (taken : List Envelope) (outbox : Outbox)
    (outside : Outside) (taken' : List Envelope) (flush : Flush) :
    (x.goOn taken (outbox, none, outside)).holder ≠ .flushing taken' flush :=
  not_flushing_release _ taken' flush

theorem not_flushing_deliver (x : Traffic) (server? : Option Peer) (command : Envelope)
    (handled : Option Envelope) (taken' : List Envelope) (flush : Flush) :
    (x.deliver server? command handled).holder ≠ .flushing taken' flush := by
  rw [deliver]
  dsimp only
  rw [(aside_conclude _ handled).holder]
  exact not_flushing_goOn_none x [] _ _ taken' flush

/-- How a flush comes to be where it is: it was there before, or it has sent one command, or it has
just begun. -/
inductive Flushed (x x' : Traffic) (taken : List Envelope) (flush : Flush) : Prop
  | same (holder : x.holder = .flushing taken flush)
      (outbox : x'.transport.outbox = x.transport.outbox) (accepted : x'.accepted = x.accepted)
  | sent (before : Flush) (command : Envelope) (holder : x.holder = .flushing taken before)
      (leaving : before.leaving = command :: flush.leaving)
      (outbox : x'.transport.outbox = x.transport.outbox)
      (accepted : x'.accepted = x.accepted ++ [command])
  | begun (holder : ∀ taken' flush', x.holder ≠ .flushing taken' flush')
      (all : taken = x.transport.outbox.waiting) (leaving : flush.leaving = taken)
      (waiting : x'.transport.outbox.waiting = [])

theorem flushed_goOn_of_starts {flush : Flush} {server? : Option Peer}
    (hstarts : x.transport.outbox.Starts server? x.outside outcome)
    (hnot : ∀ taken' flush', x.holder ≠ .flushing taken' flush')
    (hholder : (x.goOn x.transport.outbox.waiting outcome).holder = .flushing taken flush) :
    Flushed x (x.goOn x.transport.outbox.waiting outcome) taken flush := by
  obtain ⟨rfl, hflush⟩ := x.holder_goOn _ outcome hholder
  obtain ⟨hwaiting, hleaving⟩ := hstarts.leaving_eq hflush
  exact .begun hnot rfl hleaving (by rw [outbox_goOn, hwaiting])

theorem flushed_goOn_stepFlush {taken' : List Envelope} {flush flush' : Flush}
    (hbefore : x.holder = .flushing taken flush)
    (hholder : (x.goOn taken (x.transport.outbox.stepFlush flush x.outside)).holder =
      .flushing taken' flush') :
    Flushed x (x.goOn taken (x.transport.outbox.stepFlush flush x.outside)) taken' flush' := by
  obtain ⟨rfl, hflush'⟩ := x.holder_goOn _ _ hholder
  generalize hstep : x.transport.outbox.stepFlush flush x.outside = outcome at *
  obtain ⟨outbox, flush?, outside⟩ := outcome
  obtain rfl : flush? = some flush' := hflush'
  obtain ⟨rfl, command, hleaving, hparcels⟩ := Outbox.stepFlush_eq_some hstep
  refine .sent flush command hbefore hleaving rfl ?_
  rw [accepted, handed_goOn hparcels, accepted_append, accepted]
  rfl

theorem flushed_proceed {v : View} {flush : Flush} :
    (x.proceed v).holder = .flushing taken flush → Flushed x (x.proceed v) taken flush := by
  rw [Traffic.proceed]
  split
  · exact fun h ↦ .same h rfl rfl
  · split
    · exact fun h ↦ by cases h
    · exact fun h ↦ absurd h (not_flushing_deliver x _ _ _ taken flush)
  · exact fun h ↦ absurd h (not_flushing_goOn_none x [] _ _ taken flush)
  · next hholder =>
    exact flushed_goOn_of_starts (x.transport.outbox.starts_beginHear _ _ _) (by simp [hholder])
  · next hholder =>
    exact flushed_goOn_of_starts (x.transport.outbox.starts_beginCatchUp _ _) (by simp [hholder])
  · exact fun h ↦ absurd h (not_flushing_deliver x _ _ _ taken flush)
  · next hholder => exact flushed_goOn_stepFlush hholder

theorem flushed_step {occurrence : Occurrence} {flush : Flush}
    (h : (x.step occurrence).holder = .flushing taken flush) :
    Flushed x (x.step occurrence) taken flush := by
  by_cases hproceed : ∃ v, occurrence = .proceed v
  · obtain ⟨v, rfl⟩ := hproceed
    exact flushed_proceed h
  · obtain ⟨x', haside, hstep | ⟨errand, hstep⟩⟩ :=
      x.step_eq_or fun v hoccurrence ↦ hproceed ⟨v, hoccurrence⟩
    · rw [hstep] at h ⊢
      exact .same (haside.holder.symm.trans h) (by rw [haside.transport])
        (by rw [accepted, haside.handed, accepted])
    · rw [hstep] at h ⊢
      obtain harrived | ⟨-, hsame⟩ := x'.holder_request errand
      · cases harrived.symm.trans h
      · refine .same (haside.holder.symm.trans (hsame.symm.trans h)) ?_ ?_
        · rw [transport_request, haside.transport]
        · rw [accepted, handed_request, haside.handed, accepted]

theorem Intact.step (h : x.Intact) (occurrence : Occurrence) : (x.step occurrence).Intact := by
  intro taken flush hholder
  obtain ⟨hbefore, houtbox, haccepted⟩ | ⟨before, command, hbefore, hleaving, houtbox, haccepted⟩ |
    ⟨-, -, hleaving, hwaiting⟩ := flushed_step hholder
  · rw [houtbox, haccepted]
    exact h taken flush hbefore
  · obtain ⟨hwaiting, sent, htaken, earlier, hsent⟩ := h taken before hbefore
    refine ⟨by rw [houtbox, hwaiting], sent ++ [command], by simp [htaken, hleaving], earlier, ?_⟩
    rw [haccepted, ← hsent, List.append_assoc]
  · exact ⟨hwaiting, [], by simp [hleaving], List.nil_suffix⟩

theorem Intact.run (h : x.Intact) (occurrences : List Occurrence) : (x.run occurrences).Intact := by
  induction occurrences generalizing x with
  | nil => exact h
  | cons occurrence occurrences ih => exact ih (h.step occurrence)

/-- A flush that is cut short puts back what it has not sent. -/
theorem Intact.waiting_of_fails (h : x.Intact) {flush : Flush} {command : Envelope}
    {rest : List Envelope} (hholder : x.holder = .flushing taken flush)
    (hleaving : flush.leaving = command :: rest)
    (hfails : x.outside.carrier.fails command.type = true) (v : View) :
    (x.step (.proceed v)).transport.outbox.waiting = flush.leaving ∧
      ∀ taken' flush', (x.step (.proceed v)).holder ≠ .flushing taken' flush' := by
  obtain ⟨o, hstep⟩ := Outbox.stepFlush_of_fails (b := x.transport.outbox) hleaving hfails
  have hproceed : x.step (.proceed v) = x.goOn taken
      ({ x.transport.outbox with waiting := x.transport.outbox.waiting ++ flush.leaving }, none,
        o) := by
    rw [Traffic.step, Traffic.proceed, hholder]
    exact congrArg (x.goOn taken) hstep
  rw [hproceed, outbox_goOn]
  refine ⟨?_, not_flushing_goOn_none x taken _ _⟩
  rw [(h taken flush hholder).1, List.nil_append]

/-! ## Every run -/

/-- **No command is lost, and none is sent twice.**  However the doings of all parties follow on
each other, and whatever the carrier fails to send:

* whenever nobody has the link, the commands that were given are those that the carrier has taken
  and those that wait, each as often as it was given;
* those that wait are in the order in which they were given;
* what was handed over is what the carrier was given on account of the link, and each time it was
  for a server that the directory named;
* a flush begins with all commands that wait, and while it is going on it has sent these up to what
  is leaving;
* a flush that fails to send a command is over, and what waits then is that command and all after
  it, in their order. -/
theorem conserved (settings : Settings) (origin : Origin) (outside : Outside)
    (occurrences : List Occurrence) :
    let x := (start settings origin outside).run occurrences
    (x.holder = .nobody → x.given.Perm (x.accepted ++ x.transport.outbox.waiting)) ∧
    x.transport.outbox.waiting.Sublist x.given ∧
    x.handed.Sublist x.outside.carrier.parcels ∧
    (∀ p ∈ x.handed, ∃ v server, .proceed v ∈ occurrences ∧
      v.persistenceServer? = some server ∧ p.targets = [server]) ∧
    (∀ occurrence taken flush, (∀ taken' flush', x.holder ≠ .flushing taken' flush') →
      (x.step occurrence).holder = .flushing taken flush →
        taken = x.transport.outbox.waiting ∧ flush.leaving = taken) ∧
    ∀ taken flush, x.holder = .flushing taken flush →
      (∃ sent, taken = sent ++ flush.leaving ∧ sent <:+ x.accepted) ∧
      ∀ command rest v, flush.leaving = command :: rest →
        x.outside.carrier.fails command.type = true →
          (x.step (.proceed v)).transport.outbox.waiting = flush.leaving ∧
            ∀ taken' flush', (x.step (.proceed v)).holder ≠ .flushing taken' flush' := by
  intro x
  have horderly : x.Orderly fun server ↦
      ∃ v, .proceed v ∈ occurrences ∧ v.persistenceServer? = some server :=
    (orderly_start _ settings origin outside).run fun v hv server hserver ↦ ⟨v, hv, hserver⟩
  have hintact : x.Intact := Intact.run (fun taken flush hholder ↦ by cases hholder) occurrences
  refine ⟨fun hnobody ↦ ?_, ?_, horderly.carried, fun p hp ↦ ?_, ?_, ?_⟩
  · have hpending : x.pending = x.transport.outbox.waiting := by
      simp [pending, hnobody, horderly.idle hnobody, Holder.commands]
    exact hpending ▸ horderly.balance
  · exact (List.sublist_append_left _ _).trans horderly.order
  · obtain ⟨server, ⟨v, hv, hserver⟩, htargets⟩ := horderly.targets p hp
    exact ⟨v, server, hv, hserver, htargets⟩
  · intro occurrence taken flush hnot hholder
    obtain ⟨hbefore, -, -⟩ | ⟨before, command, hbefore, -, -, -⟩ | ⟨-, hall, hleaving, -⟩ :=
      flushed_step hholder
    · exact absurd hbefore (hnot taken flush)
    · exact absurd hbefore (hnot taken before)
    · exact ⟨hall, hleaving⟩
  · intro taken flush hholder
    exact ⟨(hintact taken flush hholder).2, fun command rest v hleaving hfails ↦
      hintact.waiting_of_fails hholder hleaving hfails v⟩

/-- A directory that knows one server of the persistence service, where messages are kept for
everybody. -/
def oneServer : View where
  roster := ⟨#[{ endPoint := "tcp://Bus.PersistenceService.0:1" }]⟩
  handlers := fun _ ↦ [⟨.persistence "0", 0⟩]
  isPersistent := fun _ ↦ true

/-- Somebody sends a message for which a copy is kept, and the carrier takes it. -/
def sendsLetter (n : Nat) : List Occurrence :=
  [.send oneServer
      ⟨.fresh n, ⟨"Tests.FakeEvent"⟩, [], ⟨⟨"Abc.Self.0"⟩, ""⟩, true, false, false⟩
      [.live ⟨"Abc.P.0"⟩ "tcp://Abc.P.0:1"],
    .settle 0]

/-- The service stops, and two commands wait; it starts, and while the two are flushed a third one
stands in line. -/
def cutShort : List Occurrence :=
  [.stopping ⟨.persistence "0", ""⟩, .proceed oneServer, .settle 0] ++
    sendsLetter 10 ++ [.proceed oneServer] ++ sendsLetter 11 ++ [.proceed oneServer] ++
    [.hear ⟨.persistence "0", .started⟩, .proceed oneServer, .proceed oneServer] ++
    sendsLetter 12 ++ [.proceed oneServer, .proceed oneServer, .proceed oneServer]

/-- The carrier fails to send the second command of the flush. -/
def cutShortEnd : Traffic :=
  (start {} ⟨⟨"Abc.Self.0"⟩, ""⟩
    { carrier := { verdicts := [false, false, false, false, false, true] } }).run cutShort

/-- The first command is taken, the second one waits again, and the third one, which came to the
link later, is taken. -/
theorem conserved_cutShort :
    cutShortEnd.accepted.map Envelope.id = [.fresh 1, .fresh 3] ∧
    cutShortEnd.transport.outbox.waiting.map Envelope.id = [.fresh 2] ∧
    cutShortEnd.given.Perm (cutShortEnd.accepted ++ cutShortEnd.transport.outbox.waiting) := by
  refine ⟨rfl, rfl, ?_⟩
  exact (conserved {} ⟨⟨"Abc.Self.0"⟩, ""⟩ _ cutShort).1 rfl

end Traffic

end ServiceBus.Durable
