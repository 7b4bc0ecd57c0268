import ServiceBus.Proofs.Durable.Backlog

/-!
# After missed updates

A transport that reads the feed too slowly is told that it has missed updates.  The start of the
persistence service may be among them, so the transport looks whether the directory names a server
of the service.  If it does, the link is up, and what waits for the service should be flushed as it
is when the start is heard.

`Liaison.handsOver_iff` says what becomes of the commands that wait: they are handed over in their
order, up to the first at which the carrier fails, if the link was marked as down.  If it was not,
nothing is done, although commands may wait all the same.
-/

set_option autoImplicit false

namespace ServiceBus.Durable

open Directory (View)

namespace Outbox

variable {b : Outbox}

/-- A link that is not marked as down is left as it is. -/
theorem beginCatchUp_of_up (h : b.down = false) (server? : Option Peer) (o : Outside) :
    b.beginCatchUp server? o = (b, none, o) := by
  rw [beginCatchUp, h]
  rfl

/-- If a server is named, a link that is marked as down is up, and what waits is flushed. -/
theorem beginCatchUp_of_down (h : b.down = true) (server : Peer) (o : Outside) :
    ∃ o', o'.carrier = o.carrier ∧ b.beginCatchUp (some server) o =
      ({ down := false, waiting := [] },
        if b.waiting = [] then none else some ⟨server, b.waiting⟩, o') := by
  rw [beginCatchUp, h]
  cases b.waiting with
  | nil => exact ⟨o.note (.persistenceFound 0), rfl, rfl⟩
  | cons command rest =>
    let count := (command :: rest).length
    exact ⟨(o.note (.persistenceFound count)).note (.flushing count server.id), rfl, rfl⟩

end Outbox

/-- A flush is going on. -/
def Holder.isFlushing : Holder → Bool
  | .flushing .. => true
  | _ => false

namespace Traffic

/-- What the carrier is given when some commands are sent to a server and the next one fails. -/
def parcelsOf (server : Peer) (sent rest : List Envelope) : List Parcel :=
  sent.map (fun command ↦ ⟨command, [server], false⟩) ++
    (rest.head?.map fun command ↦ ⟨command, [server], true⟩).toList

theorem eq_nil_of_parcelsOf {server : Peer} {sent rest : List Envelope}
    (h : parcelsOf server sent rest = []) : sent = [] ∧ rest = [] := by
  simpa [parcelsOf] using h

/-- From one traffic to another, commands were handed over to a server in their order up to the
first one at which the carrier failed, and this one and all after it wait. -/
def HandsOver (x x' : Traffic) (server : Peer) (commands : List Envelope) : Prop :=
  ∃ sent rest, commands = sent ++ rest ∧ x'.transport.outbox.waiting = rest ∧
    x'.handed = x.handed ++ parcelsOf server sent rest

variable {x x' : Traffic} {server : Peer} {taken leaving : List Envelope}

theorem isFlushing_release (x : Traffic) : x.release.holder.isFlushing = false := by
  rw [release]
  cases x.line <;> rfl

theorem isFlushing_goOn_none (x : Traffic) (taken : List Envelope) (outbox : Outbox)
    (outside : Outside) : (x.goOn taken (outbox, none, outside)).holder.isFlushing = false :=
  isFlushing_release _

/-- What a flush does next. -/
inductive Flushes (x : Traffic) (taken : List Envelope) (server : Peer) :
    List Envelope → Traffic → Prop
  /-- All commands have been sent. -/
  | ends {x' : Traffic} (holder : x'.holder.isFlushing = false)
      (outbox : x'.transport.outbox = x.transport.outbox) (handed : x'.handed = x.handed) :
      Flushes x taken server [] x'
  /-- The next command is sent. -/
  | sends {command : Envelope} {rest : List Envelope} {x' : Traffic}
      (holder : x'.holder = .flushing taken ⟨server, rest⟩)
      (outbox : x'.transport.outbox = x.transport.outbox)
      (handed : x'.handed = x.handed ++ [⟨command, [server], false⟩]) :
      Flushes x taken server (command :: rest) x'
  /-- The carrier fails at the next command. -/
  | fails {command : Envelope} {rest : List Envelope} {x' : Traffic}
      (holder : x'.holder.isFlushing = false)
      (outbox : x'.transport.outbox = { x.transport.outbox with
        waiting := x.transport.outbox.waiting ++ command :: rest })
      (handed : x'.handed = x.handed ++ [⟨command, [server], true⟩]) :
      Flushes x taken server (command :: rest) x'

theorem flushes_proceed (hholder : x.holder = .flushing taken ⟨server, leaving⟩) (v : View) :
    x.Flushes taken server leaving (x.proceed v) := by
  rw [proceed, hholder]
  dsimp only
  cases leaving with
  | nil =>
    refine .ends (isFlushing_goOn_none ..) (outbox_goOn ..) ?_
    exact (handed_goOn (List.append_nil _).symm taken).trans (List.append_nil _)
  | cons command rest =>
    rw [Outbox.stepFlush]
    dsimp only
    cases hsend : x.outside.send command [server] with
    | mk result o =>
      cases result with
      | ok _ => exact .sends rfl rfl (handed_goOn (Outside.parcels_of_send_ok hsend) taken)
      | error failure =>
        have hcarried := Outside.parcels_of_send_error hsend
        exact .fails (isFlushing_goOn_none ..) (outbox_goOn ..) (handed_goOn hcarried taken)

/-- Whoever comes for the link while another one has it leaves it to him. -/
theorem holder_request_of_flushing {flush : Flush} (h : x.holder = .flushing taken flush)
    (errand : Errand) : (x.request errand).holder = .flushing taken flush := by
  simp only [request, h]

/-- While a flush is going on, an occurrence is what it does next, or leaves it as it is. -/
theorem flushes_step (hholder : x.holder = .flushing taken ⟨server, leaving⟩)
    (occurrence : Occurrence) :
    x.Flushes taken server leaving (x.step occurrence) ∨
      (x.step occurrence).holder = x.holder ∧
        (x.step occurrence).transport.outbox = x.transport.outbox ∧
        (x.step occurrence).handed = x.handed := by
  by_cases hproceed : ∃ v, occurrence = .proceed v
  · obtain ⟨v, rfl⟩ := hproceed
    exact Or.inl (flushes_proceed hholder v)
  · obtain ⟨x', haside, hstep | ⟨errand, hstep⟩⟩ :=
      x.step_eq_or fun v hoccurrence ↦ hproceed ⟨v, hoccurrence⟩
    · rw [hstep, haside.transport]
      exact Or.inr ⟨haside.holder, rfl, haside.handed⟩
    · have hholder' := holder_request_of_flushing (haside.holder.trans hholder) errand
      rw [hstep, transport_request, haside.transport, handed_request]
      exact Or.inr ⟨hholder'.trans hholder.symm, rfl, haside.handed⟩

end Traffic

namespace Liaison

/-- The incidents of a run from a moment on, up to the first moment at which no flush is going on.
-/
inductive SeenThrough : Liaison → List Incident → Prop
  | finished {x : Liaison} (idle : x.traffic.holder.isFlushing = false) : SeenThrough x []
  | more {x : Liaison} {incident : Incident} {incidents : List Incident}
      (busy : x.traffic.holder.isFlushing = true) (rest : SeenThrough (x.step incident) incidents) :
      SeenThrough x (incident :: incidents)

variable {x : Liaison} {server : Peer} {taken leaving : List Envelope}

theorem SeenThrough.eq_nil {incidents : List Incident} (h : x.SeenThrough incidents)
    (idle : x.traffic.holder.isFlushing = false) : incidents = [] := by
  cases h with
  | finished => rfl
  | more busy => cases idle.symm.trans busy

/-- While a flush is going on, an incident is what it does next, or leaves it as it is. -/
theorem flushes_step (hholder : x.traffic.holder = .flushing taken ⟨server, leaving⟩)
    (incident : Incident) :
    x.traffic.Flushes taken server leaving (x.step incident).traffic ∨
      (x.step incident).traffic.holder = x.traffic.holder ∧
        (x.step incident).traffic.transport.outbox = x.traffic.transport.outbox ∧
        (x.step incident).traffic.handed = x.traffic.handed := by
  rw [traffic_step]
  cases x.occurrence? incident with
  | none => exact Or.inr ⟨rfl, rfl, rfl⟩
  | some occurrence => exact Traffic.flushes_step hholder occurrence

/-- **A flush hands over its commands**, as far as the carrier takes them. -/
theorem handsOver_of_seenThrough {incidents : List Incident} (h : x.SeenThrough incidents)
    (hholder : x.traffic.holder = .flushing taken ⟨server, leaving⟩)
    (hwaiting : x.traffic.transport.outbox.waiting = []) :
    (x.run incidents).traffic.transport.outbox.down = x.traffic.transport.outbox.down ∧
      x.traffic.HandsOver (x.run incidents).traffic server leaving := by
  induction h generalizing leaving with
  | finished idle => simp [hholder, Holder.isFlushing] at idle
  | @more x incident incidents busy rest ih =>
    have hrun : x.run (incident :: incidents) = (x.step incident).run incidents := rfl
    obtain hflushes | ⟨holder, outbox, handed⟩ := flushes_step hholder incident
    · cases hflushes with
      | ends holder outbox handed =>
        obtain rfl := rest.eq_nil holder
        refine ⟨by rw [hrun, run, List.foldl_nil, outbox], [], [], rfl, ?_, ?_⟩
        · exact (congrArg Outbox.waiting outbox).trans hwaiting
        · exact handed.trans (List.append_nil _).symm
      | @sends command unsent _ holder outbox handed =>
        obtain ⟨hdown, sent, after, rfl, hafter, hhanded⟩ := ih holder (outbox ▸ hwaiting)
        refine ⟨hdown.trans (by rw [outbox]), command :: sent, after, rfl, hafter, ?_⟩
        rw [hrun, hhanded, handed, List.append_assoc]
        rfl
      | @fails command unsent _ holder outbox handed =>
        obtain rfl := rest.eq_nil holder
        refine ⟨by rw [hrun, run, List.foldl_nil, outbox], [], command :: unsent, rfl, ?_, handed⟩
        rw [hrun, run, List.foldl_nil, outbox, hwaiting, List.nil_append]
    · obtain ⟨hdown, sent, after, hleaving, hafter, hhanded⟩ :=
        ih (holder.trans hholder) (outbox ▸ hwaiting)
      exact ⟨hdown.trans (by rw [outbox]), sent, after, hleaving, hafter, handed ▸ hhanded⟩

/-- A flush can be seen through: no more is needed than that its holder goes on. -/
theorem exists_seenThrough (hholder : x.traffic.holder = .flushing taken ⟨server, leaving⟩) :
    ∃ incidents, x.SeenThrough incidents := by
  have hbusy : x.traffic.holder.isFlushing = true := by rw [hholder]; rfl
  induction leaving generalizing x with
  | nil =>
    have hflushes := Traffic.flushes_proceed hholder x.view
    cases hflushes with
    | ends holder => exact ⟨[.proceed], .more hbusy (.finished holder)⟩
  | cons command rest ih =>
    have hflushes := Traffic.flushes_proceed hholder x.view
    cases hflushes with
    | sends holder =>
      have hbusy' : (x.step .proceed).traffic.holder.isFlushing = true :=
        congrArg Holder.isFlushing holder
      obtain ⟨incidents, hrest⟩ := ih holder hbusy'
      exact ⟨.proceed :: incidents, .more hbusy hrest⟩
    | fails holder => exact ⟨[.proceed], .more hbusy (.finished holder)⟩

/-! ## Every resync -/

/-- What whoever has missed updates does when he has the link. -/
theorem traffic_catchUp (hholder : x.traffic.holder = .arrived .catchUp)
    (hserver : x.view.persistenceServer? = some server) :
    (x.step .proceed).traffic = x.traffic.goOn x.traffic.transport.outbox.waiting
      (x.traffic.transport.outbox.beginCatchUp (some server) x.traffic.outside) := by
  show x.traffic.proceed x.view = _
  rw [Traffic.proceed, hholder, hserver]

/-- A link that is not marked as down is left as it is, and nothing is handed over. -/
theorem traffic_catchUp_of_up (hholder : x.traffic.holder = .arrived .catchUp)
    (hserver : x.view.persistenceServer? = some server)
    (hup : x.traffic.transport.outbox.down = false) :
    (x.step .proceed).traffic.holder.isFlushing = false ∧
      (x.step .proceed).traffic.transport.outbox = x.traffic.transport.outbox ∧
      (x.step .proceed).traffic.handed = x.traffic.handed := by
  rw [traffic_catchUp hholder hserver, Outbox.beginCatchUp_of_up hup]
  refine ⟨Traffic.isFlushing_goOn_none .., Traffic.outbox_goOn .., ?_⟩
  exact (Traffic.handed_goOn (List.append_nil _).symm _).trans (List.append_nil _)

/-- A link that is marked as down is up then, and all that waits is handed over. -/
theorem handsOver_catchUp_of_down (hholder : x.traffic.holder = .arrived .catchUp)
    (hserver : x.view.persistenceServer? = some server)
    (hdown : x.traffic.transport.outbox.down = true) :
    (∃ incidents, (x.step .proceed).SeenThrough incidents) ∧
      ∀ incidents, (x.step .proceed).SeenThrough incidents →
        ((x.step .proceed).run incidents).traffic.transport.outbox.down = false ∧
          x.traffic.HandsOver ((x.step .proceed).run incidents).traffic server
            x.traffic.transport.outbox.waiting := by
  obtain ⟨o, hcarrier, hbegin⟩ :=
    Outbox.beginCatchUp_of_down hdown server x.traffic.outside
  have htraffic := traffic_catchUp hholder hserver
  rw [hbegin] at htraffic
  have houtbox : (x.step .proceed).traffic.transport.outbox = { down := false, waiting := [] } := by
    rw [htraffic, Traffic.outbox_goOn]
  have hparcels : o.carrier.parcels = x.traffic.outside.carrier.parcels ++ [] := by simp [hcarrier]
  have hhanded : (x.step .proceed).traffic.handed = x.traffic.handed := by
    rw [htraffic, Traffic.handed_goOn hparcels, List.append_nil]
  by_cases hwaiting : x.traffic.transport.outbox.waiting = []
  · rw [if_pos hwaiting] at htraffic
    have hidle : (x.step .proceed).traffic.holder.isFlushing = false := by
      rw [htraffic]
      exact Traffic.isFlushing_goOn_none ..
    refine ⟨⟨[], .finished hidle⟩, fun incidents h ↦ ?_⟩
    obtain rfl := h.eq_nil hidle
    refine ⟨congrArg Outbox.down houtbox, [], [], hwaiting, congrArg Outbox.waiting houtbox, ?_⟩
    exact hhanded.trans (List.append_nil _).symm
  · rw [if_neg hwaiting] at htraffic
    have hflushing : (x.step .proceed).traffic.holder =
        .flushing x.traffic.transport.outbox.waiting
          ⟨server, x.traffic.transport.outbox.waiting⟩ := by
      rw [htraffic]
      rfl
    refine ⟨exists_seenThrough hflushing, fun incidents h ↦ ?_⟩
    obtain ⟨hdown', sent, rest, hsplit, hrest, hhanded'⟩ :=
      handsOver_of_seenThrough h hflushing (congrArg Outbox.waiting houtbox)
    refine ⟨hdown'.trans (congrArg Outbox.down houtbox), sent, rest, hsplit, hrest, ?_⟩
    rw [hhanded', hhanded]

/-- **What waits is handed over if the link was marked as down.**  Whoever has missed updates comes
for the link (`traffic_read_of_missed`), and when he has it he sees that the directory names a
server of the persistence service.  What he does then can always be seen through, and afterwards the
link is up.  What waited was handed over in its order, up to the first command at which the carrier
failed, just if the link was marked as down or nothing waited; if it was not marked, the outbox is
as it was, and nothing was handed over. -/
theorem handsOver_iff (hholder : x.traffic.holder = .arrived .catchUp)
    (hserver : x.view.persistenceServer? = some server) :
    (∃ incidents, (x.step .proceed).SeenThrough incidents) ∧
      ∀ incidents, (x.step .proceed).SeenThrough incidents →
        let b := x.traffic.transport.outbox
        let x' := (x.step .proceed).run incidents
        x'.traffic.transport.outbox.down = false ∧
          (x.traffic.HandsOver x'.traffic server b.waiting ↔ b.down = true ∨ b.waiting = []) ∧
          (b.down = false →
            x'.traffic.transport.outbox = b ∧ x'.traffic.handed = x.traffic.handed) := by
  cases hdown : x.traffic.transport.outbox.down with
  | true =>
    obtain ⟨hexists, hall⟩ := handsOver_catchUp_of_down hholder hserver hdown
    refine ⟨hexists, fun incidents h ↦ ?_⟩
    obtain ⟨hup, hhands⟩ := hall incidents h
    exact ⟨hup, iff_of_true hhands (Or.inl hdown), fun hnot ↦ by cases hdown.symm.trans hnot⟩
  | false =>
    obtain ⟨hidle, houtbox, hhanded⟩ := traffic_catchUp_of_up hholder hserver hdown
    refine ⟨⟨[], .finished hidle⟩, fun incidents h ↦ ?_⟩
    obtain rfl := h.eq_nil hidle
    refine ⟨(congrArg Outbox.down houtbox).trans hdown, ⟨?_, ?_⟩, fun _ ↦ ⟨houtbox, hhanded⟩⟩
    · rintro ⟨sent, rest, hsplit, -, hnew⟩
      -- nothing was handed over, so nothing can have been sent, and nothing refused
      have hnothing : Traffic.parcelsOf server sent rest = [] :=
        List.append_right_eq_self.mp (hnew.symm.trans hhanded)
      obtain ⟨rfl, rfl⟩ := Traffic.eq_nil_of_parcelsOf hnothing
      exact Or.inr hsplit
    · rintro (hmarked | hwaiting)
      · cases hdown.symm.trans hmarked
      · exact ⟨[], [], hwaiting, (congrArg Outbox.waiting houtbox).trans hwaiting,
          hhanded.trans (List.append_nil _).symm⟩

/-- A transport that keeps only one update for whoever is slow. -/
def lagging (verdicts : List Bool) : Liaison :=
  start { persistent := true, peerUpdateQueueSize := 1 } noon {}
    ⟨⟨"Abc.Self.0"⟩, "tcp://Abc.Self.0:1"⟩ { carrier := { verdicts } }

/-- The persistence service starts, and its update is lost to that of another peer. -/
def losesStart : List Incident :=
  [.act (.event (.started ⟨service⟩)),
    .act (.event (.started ⟨{ peer := .live ⟨"Abc.P.0"⟩ "tcp://Abc.P.0:1", subscriptions := [] }⟩))]

/-- The message is handled while the service is down, and then the service starts. -/
def lostWhileDown : List Incident :=
  [.follow, .stopping ⟨.persistence "0", "tcp://Bus.PersistenceService.0:1"⟩, .proceed, .settle 0,
    .ack keptLetter, .proceed, .settle 0] ++ losesStart ++ [.read]

/-- The command that waited is handed over. -/
theorem handsOver_lostWhileDown :
    let x := (lagging []).run lostWhileDown
    x.traffic.transport.outbox.waiting.length = 1 ∧
      ∃ server incidents, x.view.persistenceServer? = some server ∧
        (x.step .proceed).SeenThrough incidents ∧
        ((x.step .proceed).run incidents).traffic.transport.outbox.down = false ∧
        x.traffic.HandsOver ((x.step .proceed).run incidents).traffic server
          x.traffic.transport.outbox.waiting := by
  intro x
  have hholder : x.traffic.holder = .arrived .catchUp := by with_unfolding_all rfl
  have hsome : x.view.persistenceServer?.isSome := by decide +kernel
  obtain ⟨server, hserver⟩ := Option.isSome_iff_exists.mp hsome
  obtain ⟨⟨incidents, hseen⟩, hall⟩ := handsOver_iff hholder hserver
  obtain ⟨hup, hiff, -⟩ := hall incidents hseen
  refine ⟨by decide +kernel, server, incidents, hserver, hseen, hup, hiff.mpr (Or.inl ?_)⟩
  decide +kernel

/-- The updates that the transport misses when it reads next. -/
def missed (x : Liaison) : List Directory.Update :=
  match x.place, x.reading? with
  | some place, some (.missed _, next) => (x.feed.sent.toList.take next).drop place
  | _, _ => []

/-- The message is handled while the service is not known, and then the service starts. -/
def lostWhileUnknown : List Incident :=
  [.follow, .ack keptLetter, .proceed, .settle 0] ++ losesStart

/-- The message is handled while the carrier fails, and then the service starts once more. -/
def lostWhileFailing : List Incident :=
  [.follow, .act (.event (.started ⟨service⟩)), .read, .proceed, .ack keptLetter, .proceed,
    .proceed, .settle 0] ++ losesStart

/-- The start of the service goes unnoticed: the transport misses that the service starts, and the
directory names a server of it; when the transport has seen to what it missed and has read the rest,
the link is up, and yet a command still waits, and nothing was handed over. -/
def Overlooks (x : Liaison) : Prop :=
  let x' := x.run [.read, .proceed, .read]
  ⟨.persistence "0", .started⟩ ∈ x.missed ∧ x.view.persistenceServer?.isSome ∧ x'.Calm ∧
    x'.traffic.transport.outbox.down = false ∧ x'.traffic.transport.outbox.waiting ≠ [] ∧
    x'.traffic.handed = x.traffic.handed

/-- **A start that is missed may go unnoticed.**  So it is if the command waits because the service
was not known, and also if the carrier failed at it. -/
theorem overlooks_lostWhileUp :
    ((lagging []).run lostWhileUnknown).Overlooks ∧
      ((lagging [true]).run lostWhileFailing).Overlooks := by
  unfold Overlooks
  decide +kernel

end Liaison

end ServiceBus.Durable
