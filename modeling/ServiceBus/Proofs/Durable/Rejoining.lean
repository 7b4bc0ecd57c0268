import ServiceBus.Proofs.Durable.Duplicates
import ServiceBus.Proofs.Durable.Pleas

/-!
# One replay

Any number of calls ask for the replay, side by side and again and again.  There is one replay all
the same.  The first call makes its id, and all others take it from the phase (`OneReplay`); the
phase goes forward, each time for one reason (`Succeeds`); and what belongs to another replay is
given notice of and nothing more (`step_of_belongsTo`).  So no call succeeds unless the persistence
service has begun the replay that was asked for (`HasBegun`).  `replay_of_run` says all this of every
run.
-/

set_option autoImplicit false

namespace ServiceBus.Durable

open Directory (View)

/-! ## The phase goes forward -/

/-- The phase that comes after one, with an occasion. -/
inductive Phase.Succeeds : Phase → Occasion → Phase → Prop
  | same (phase : Phase) (occasion : Occasion) : Succeeds phase occasion phase
  | opened (replay : Uuid) : Succeeds (.replay none) .plead (.replay (some replay))
  | replayEnded {m : Envelope} {body : ReplayPhaseEnded}
    (h : m.decode ReplayPhaseEnded = .ok body) :
      Succeeds (.replay (some body.replay)) (.move (.receive m)) (.safety body.replay)
  | safetyEnded {m : Envelope} {body : SafetyPhaseEnded}
    (h : m.decode SafetyPhaseEnded = .ok body) :
      Succeeds (.safety body.replay) (.move (.receive m)) .normal
  | stopped (replay : Uuid) : Succeeds (.safety replay) (.move .stop) .normal

/-- How far a phase is. -/
def Phase.rank : Phase → Nat
  | direct => 0
  | replay _ => 0
  | safety _ => 1
  | normal => 2

theorem Phase.Succeeds.forward {p p' : Phase} {occasion : Occasion}
    (h : p.Succeeds occasion p') : p.rank ≤ p'.rank ∧ (p' = .direct ↔ p = .direct) := by
  cases h with
  | same => exact ⟨Nat.le_refl _, Iff.rfl⟩
  | _ => simp [rank]

/-- The replay has begun with a message, or at least is going on. -/
inductive Begins (phase : Phase) (m : Envelope) : Prop
  | replayed (body : Replayed) (h : m.decode Replayed = .ok body)
      (hreplay : phase.session = some body.replay)
  | replayPhaseEnded (body : ReplayPhaseEnded) (h : m.decode ReplayPhaseEnded = .ok body)
      (hreplay : phase.session = some body.replay)

namespace Reception

variable {r r' r'' : Reception}

/-- The phase is the same, and whether the replay has begun. -/
structure Alike (r r' : Reception) : Prop where
  phase : r'.phase = r.phase
  begun : r'.replayBegun = r.replayBegun

theorem Alike.refl (r : Reception) : r.Alike r := ⟨rfl, rfl⟩

theorem Alike.trans (h : r.Alike r') (h' : r'.Alike r'') : r.Alike r'' :=
  ⟨h'.phase.trans h.phase, h'.begun.trans h.begun⟩

theorem alike_hold (r : Reception) (m : Envelope) : r.Alike (r.hold m).1 := by
  rw [hold]
  split
  · exact .refl r
  · exact ⟨rfl, rfl⟩

theorem alike_receiveLive (r : Reception) (m : Envelope) : r.Alike (r.receiveLive m).1 := by
  rw [receiveLive]
  split
  · exact alike_hold r m
  · exact alike_hold r m
  · exact .refl r
  · exact .refl r

theorem alike_judge (r : Reception) (verdict : Verdict) : r.Alike (r.judge verdict).1 := by
  rw [judge]
  split
  · cases verdict <;> exact ⟨rfl, rfl⟩
  · exact .refl r

theorem alike_turn (r : Reception) : r.Alike r.turn.1 := by
  rw [turn]
  split
  · split <;> exact ⟨rfl, rfl⟩
  · dsimp only
    split
    · exact ⟨rfl, rfl⟩
    · exact .refl r
  · exact .refl r

theorem phase_receiveReplayed (r : Reception) (body : Replayed) :
    (r.receiveReplayed body).1.phase = r.phase := by
  rw [receiveReplayed]
  split
  · dsimp only
    split
    · exact (alike_hold _ _).phase
    · rfl
  · rfl

/-- A message of another replay is given notice of. -/
theorem receiveReplayed_of_ne {body : Replayed} (h : r.phase.session ≠ some body.replay) :
    r.receiveReplayed body =
      (r, [.replayIgnored (Message.type Replayed) body.replay r.phase], .nothing) := by
  rw [receiveReplayed, if_neg h]

/-- The end of the replay phase of another replay is given notice of, if it is that. -/
theorem endReplayPhase_of_ne {replay : Uuid} (h : r.phase.session ≠ some replay) :
    ∃ notices, r.endReplayPhase replay = (r, notices) := by
  rw [endReplayPhase]
  split
  · next current hphase =>
    rw [hphase, Phase.session] at h
    rw [if_neg h]
    exact ⟨_, rfl⟩
  · exact ⟨_, rfl⟩

/-- The end of the safety phase of another replay is given notice of, if it is that. -/
theorem endSafetyPhase_of_ne {replay : Uuid} (h : r.phase.session ≠ some replay) :
    ∃ notices, r.endSafetyPhase replay = (r, notices, .nothing) := by
  rw [endSafetyPhase]
  split
  · next current hphase =>
    rw [hphase] at h
    rw [if_neg fun hcurrent ↦ h (congrArg some hcurrent)]
    exact ⟨_, rfl⟩
  · exact ⟨_, rfl⟩

theorem succeeds_endReplayPhase {m : Envelope} {body : ReplayPhaseEnded}
    (h : m.decode ReplayPhaseEnded = .ok body) :
    r.phase.Succeeds (.move (.receive m)) (r.endReplayPhase body.replay).1.phase := by
  rw [endReplayPhase]
  split
  · next current hphase =>
    split
    · next hcurrent =>
      rw [hphase, hcurrent]
      exact .replayEnded h
    · exact .same _ _
  · exact .same _ _

theorem succeeds_endSafetyPhase {m : Envelope} {body : SafetyPhaseEnded}
    (h : m.decode SafetyPhaseEnded = .ok body) :
    r.phase.Succeeds (.move (.receive m)) (r.endSafetyPhase body.replay).1.phase := by
  rw [endSafetyPhase]
  split
  · next current hphase =>
    split
    · next hcurrent =>
      rw [hphase, hcurrent]
      exact .safetyEnded h
    · exact .same _ _
  · exact .same _ _

theorem begun_endSafetyPhase (r : Reception) (replay : Uuid) :
    (r.endSafetyPhase replay).1.replayBegun = r.replayBegun := by
  rw [endSafetyPhase]
  split
  · split <;> rfl
  · rfl

theorem succeeds_stop (r : Reception) : r.phase.Succeeds (.move .stop) r.stop.1.phase := by
  rw [stop]
  split
  · next session hphase =>
    rw [hphase]
    exact .stopped session
  · exact .same _ _

theorem begun_stop (r : Reception) : r.stop.1.replayBegun = r.replayBegun := by
  rw [stop]
  split <;> rfl

end Reception

namespace Session

variable {s s' : Session}

/-- What a message does to the phase, and when the replay has begun after it. -/
theorem succeeds_receive {m : Envelope} (hstep : s.step (.receive m) = some s') :
    s.transport.reception.phase.Succeeds (.move (.receive m)) s'.transport.reception.phase ∧
      (s'.transport.reception.replayBegun = true →
        s.transport.reception.replayBegun = true ∨ Begins s.transport.reception.phase m) := by
  cases received_of_step hstep with
  | aside unread reception =>
    exact ⟨reception ▸ .same _ _, fun hbegun ↦ Or.inl (reception ▸ hbegun)⟩
  | live free kind =>
    have halike := s.transport.reception.alike_receiveLive m
    rw [reception_follow_react, halike.phase, halike.begun]
    exact ⟨.same _ _, Or.inl⟩
  | @replayed body free kind =>
    rw [reception_follow_react, Reception.phase_receiveReplayed]
    refine ⟨.same _ _, fun hbegun ↦ ?_⟩
    by_cases hreplay : s.transport.reception.phase.session = some body.replay
    · exact Or.inr (.replayed body kind hreplay)
    · rw [Reception.receiveReplayed_of_ne hreplay] at hbegun
      exact Or.inl hbegun
  | @replayPhaseEnded body free kind =>
    refine ⟨Reception.succeeds_endReplayPhase kind, fun hbegun ↦ ?_⟩
    by_cases hreplay : s.transport.reception.phase.session = some body.replay
    · exact Or.inr (.replayPhaseEnded body kind hreplay)
    · obtain ⟨notices, hend⟩ := Reception.endReplayPhase_of_ne hreplay
      rw [hend] at hbegun
      exact Or.inl hbegun
  | @safetyPhaseEnded body free kind =>
    rw [reception_follow_react, Reception.begun_endSafetyPhase]
    exact ⟨Reception.succeeds_endSafetyPhase kind, Or.inl⟩

theorem alike_work (s : Session) : s.transport.reception.Alike s.work.transport.reception := by
  have hturn := s.transport.reception.alike_turn
  rw [work]
  generalize s.transport.reception.turn = turned at hturn
  obtain ⟨r, turn⟩ := turned
  cases turn with
  | rest => exact hturn
  | skip id => exact hturn
  | offer m =>
    dsimp only
    split
    · exact hturn
    · exact hturn.trans (Reception.alike_judge r .accepted)

theorem alike_wake (h : s.wake = some s') :
    s.transport.reception.Alike s'.transport.reception := by
  obtain ⟨-, -, -, ⟨-, hreception⟩ | ⟨session, -, hreception⟩⟩ := wake_cases h
  · rw [hreception]
    exact .refl _
  · rw [hreception]
    exact ⟨rfl, rfl⟩

/-- What a move does to the phase, and when the replay has begun after it. -/
theorem succeeds_step {move : Move} (hrequest : ∀ v, move ≠ .request v)
    (hstep : s.step move = some s') :
    s.transport.reception.phase.Succeeds (.move move) s'.transport.reception.phase ∧
      (s'.transport.reception.replayBegun = true → s.transport.reception.replayBegun = true ∨
        ∃ m, move = .receive m ∧ Begins s.transport.reception.phase m) := by
  have halike : s.transport.reception.Alike s'.transport.reception →
      s.transport.reception.phase.Succeeds (.move move) s'.transport.reception.phase ∧
      (s'.transport.reception.replayBegun = true → s.transport.reception.replayBegun = true ∨
        ∃ m, move = .receive m ∧ Begins s.transport.reception.phase m) := fun h ↦
    ⟨h.phase ▸ .same _ _, fun hbegun ↦ Or.inl (h.begun ▸ hbegun)⟩
  cases moved_of_step hrequest hstep with
  | received m =>
    obtain ⟨hphase, hbegun⟩ := succeeds_receive hstep
    exact ⟨hphase, fun h ↦ (hbegun h).imp_right fun hbegins ↦ ⟨m, rfl, hbegins⟩⟩
  | worked => exact halike (alike_work s)
  | judged verdict => exact halike (Reception.alike_judge _ verdict)
  | woken hmove hwake => exact halike (alike_wake hwake)
  | stopped =>
    exact ⟨Reception.succeeds_stop _, fun hbegun ↦
      Or.inl ((Reception.begun_stop s.transport.reception).symm.trans hbegun)⟩

end Session

theorem Phase.Succeeds.session {p p' : Phase} {occasion : Occasion} {replay : Uuid}
    (h : p.Succeeds occasion p') (hreplay : p'.session = some replay) :
    p.session = some replay ∨ p = .replay none ∧ occasion = .plead := by
  cases h with
  | same => exact Or.inl hreplay
  | opened => exact Or.inr ⟨rfl, rfl⟩
  | replayEnded hm => exact Or.inl hreplay
  | safetyEnded hm => cases hreplay
  | stopped => cases hreplay

/-- Before the replay was asked for it was not asked for either. -/
theorem Phase.Succeeds.unasked {p : Phase} {occasion : Occasion}
    (h : p.Succeeds occasion (.replay none)) : p = .replay none := by
  cases h
  rfl

namespace Reception

variable {r r' : Reception} {fresh replay : Uuid}

/-- The id of the replay is the one that the phase has, or a new one if it has none. -/
theorem open?_eq_some (h : r.open? fresh = some (replay, r')) :
    r' = { r with phase := .replay (some replay) } ∧
      (r.phase = .replay (some replay) ∨ r.phase = .replay none) := by
  unfold open? at h
  split at h
  · next current hphase =>
    obtain ⟨rfl, rfl⟩ := Prod.mk.inj (Option.some.inj h)
    exact ⟨by rw [← hphase], Or.inl hphase⟩
  · next hphase =>
    obtain ⟨rfl, rfl⟩ := Prod.mk.inj (Option.some.inj h)
    exact ⟨rfl, Or.inr hphase⟩
  · cases h

theorem not_replay_of_open?_eq_none (h : r.open? fresh = none) (session : Option Uuid) :
    r.phase ≠ .replay session := by
  intro hphase
  unfold open? at h
  rw [hphase] at h
  cases session <;> cases h

end Reception

theorem Transport.openReplay?_eq_some {t t' : Transport} {o o' : Outside} {replay : Uuid}
    (h : t.openReplay? o = some (replay, t', o')) :
    ∃ r, t.reception.open? o.fresh.1 = some (replay, r) ∧ t' = { t with reception := r } ∧
      o'.carrier = o.carrier := by
  obtain ⟨⟨replay', r⟩, hopen, heq⟩ := Option.map_eq_some_iff.mp h
  cases heq
  exact ⟨r, hopen, rfl, rfl⟩

theorem Transport.openReplay?_eq_none {t : Transport} {o : Outside}
    (h : t.openReplay? o = none) : t.reception.open? o.fresh.1 = none :=
  Option.map_eq_none_iff.mp h

namespace Rejoining

variable {s s' : Rejoining} {occasion : Occasion}

/-- The phase after an occasion, and when the replay has begun then. -/
theorem succeeds_step (hstep : s.step occasion = some s') :
    s.reception.phase.Succeeds occasion s'.reception.phase ∧
      (s'.reception.replayBegun = true → s.reception.replayBegun = true ∨
        ∃ m, occasion = .move (.receive m) ∧ Begins s.reception.phase m) := by
  have hsame : s'.reception = s.reception →
      s.reception.phase.Succeeds occasion s'.reception.phase ∧
      (s'.reception.replayBegun = true → s.reception.replayBegun = true ∨
        ∃ m, occasion = .move (.receive m) ∧ Begins s.reception.phase m) := fun h ↦
    ⟨h ▸ .same _ _, fun hbegun ↦ Or.inl (h ▸ hbegun)⟩
  by_cases hmove : ∃ move, occasion = .move move
  · obtain ⟨move, rfl⟩ := hmove
    obtain ⟨hrequest, session, hsession, rfl⟩ := step_move hstep
    obtain ⟨hphase, hbegun⟩ := Session.succeeds_step hrequest hsession
    refine ⟨hphase, fun h ↦ (hbegun h).imp_right ?_⟩
    rintro ⟨m, rfl, hbegins⟩
    exact ⟨m, rfl, hbegins⟩
  · cases call_of_step (fun move h ↦ hmove ⟨move, h⟩) hstep with
    | needless => exact hsame rfl
    | asked => exact hsame rfl
    | returned => exact hsame rfl
    | left => exact hsame rfl
    | opened hopen =>
      obtain ⟨r, hr, rfl, -⟩ := Transport.openReplay?_eq_some hopen
      obtain ⟨rfl, hphase | hphase⟩ := Reception.open?_eq_some hr
      · refine ⟨?_, Or.inl⟩
        show s.reception.phase.Succeeds _ _
        rw [reception, hphase]
        exact .same _ _
      · refine ⟨?_, Or.inl⟩
        show s.reception.phase.Succeeds _ _
        rw [reception, hphase]
        exact .opened _

end Rejoining

/-! ## What is sent -/

/-- What was sent in between asks for no replay. -/
def Outside.SendsOthers (o o' : Outside) : Prop :=
  ∃ sent, o'.carrier.parcels = o.carrier.parcels ++ sent ∧
    ∀ parcel ∈ sent, parcel.message.is StartReplay = false

theorem Outside.SendsOthers.of_same {o o' : Outside} (h : o'.carrier = o.carrier) :
    o.SendsOthers o' :=
  ⟨[], by rw [h, List.append_nil], by simp⟩

namespace Transport

/-- What the receiving side does sends nothing. -/
theorem carrier_react (t : Transport) (received : Reception × List Notice × Reception.Duty)
    (o : Outside) :
    (t.react received o).1.origin = t.origin ∧ (t.react received o).2.1.carrier = o.carrier := by
  obtain ⟨r, notices, duty⟩ := received
  cases duty with
  | nothing => exact ⟨rfl, rfl⟩
  | await session => exact ⟨rfl, rfl⟩
  | offer m =>
    rw [react]
    cases hlistener : t.hasListener <;>
      simp [offered?, Outside.noteAll, Outside.note]

/-- A message that comes in makes the transport send no more than that it has heard of the stop. -/
theorem sendsOthers_receive (t : Transport) (m : Envelope) (o : Outside) :
    (t.receive m o).1.origin = t.origin ∧ o.SendsOthers (t.receive m o).2.1 := by
  have hreact : ∀ received, (t.react received o).1.origin = t.origin ∧
      o.SendsOthers (t.react received o).2.1 := fun received ↦
    ⟨(t.carrier_react received o).1, .of_same (t.carrier_react received o).2⟩
  unfold receive
  split
  · refine ⟨rfl, [_], rfl, fun parcel hparcel ↦ ?_⟩
    obtain rfl := List.mem_singleton.mp hparcel
    exact decide_eq_false (by decide : Message.type StoppingAck ≠ Message.type StartReplay)
  · split
    · split
      · exact hreact _
      · exact ⟨rfl, .of_same rfl⟩
    · split
      · split
        · exact hreact _
        · exact ⟨rfl, .of_same rfl⟩
      · split
        · split
          · exact hreact _
          · exact ⟨rfl, .of_same rfl⟩
        · exact hreact _

/-- Whoever asks the persistence service sends the command with the id of the replay. -/
theorem parcels_askReplay (t : Transport) (v : View) (replay : Uuid) (o : Outside) :
    ∃ sent, (t.askReplay v replay o).1.carrier.parcels = o.carrier.parcels ++ sent ∧
      ∀ parcel ∈ sent, ∃ id,
        parcel.message = .encode id (⟨replay⟩ : StartReplay) t.origin := by
  rw [askReplay]
  cases v.persistenceServer? with
  | none => exact ⟨[], (List.append_nil _).symm, by simp⟩
  | some server =>
    dsimp only
    generalize hsend : Outside.send _ _ _ = sending
    obtain ⟨result, o'⟩ := sending
    refine ⟨[⟨.encode o.fresh.1 (⟨replay⟩ : StartReplay) t.origin, [server],
      o.carrier.fails (Message.type StartReplay)⟩], ?_, fun parcel hparcel ↦ ?_⟩
    · have hcarrier := congrArg (fun sent ↦ sent.2.carrier.parcels) hsend
      cases result <;> exact hcarrier.symm
    · obtain rfl := List.mem_singleton.mp hparcel
      exact ⟨_, rfl⟩

end Transport

namespace Session

variable {s s' : Session}

theorem carrier_follow (received : Transport × Outside × Reaction) :
    (s.follow received).transport = received.1 ∧ (s.follow received).outside = received.2.1 := by
  obtain ⟨t, o, reaction⟩ := received
  cases reaction <;> exact ⟨rfl, rfl⟩

theorem carrier_work (s : Session) :
    s.work.transport.origin = s.transport.origin ∧ s.work.outside.carrier = s.outside.carrier := by
  rw [work]
  generalize s.transport.reception.turn = turned
  obtain ⟨r, turn⟩ := turned
  cases turn with
  | rest => exact ⟨rfl, rfl⟩
  | skip id => exact ⟨rfl, rfl⟩
  | offer m =>
    dsimp only
    split <;> exact ⟨rfl, rfl⟩

theorem carrier_wake (h : s.wake = some s') :
    s'.transport.origin = s.transport.origin ∧ s'.outside.carrier = s.outside.carrier := by
  obtain ⟨w, -, rfl⟩ := Option.map_eq_some_iff.mp h
  cases w <;> exact ⟨rfl, rfl⟩

/-- No move but a request asks for a replay. -/
theorem sendsOthers_step {move : Move} (hrequest : ∀ v, move ≠ .request v)
    (hstep : s.step move = some s') :
    s'.transport.origin = s.transport.origin ∧ s.outside.SendsOthers s'.outside := by
  have hsame : s'.transport.origin = s.transport.origin ∧
      s'.outside.carrier = s.outside.carrier →
      s'.transport.origin = s.transport.origin ∧ s.outside.SendsOthers s'.outside := fun h ↦
    ⟨h.1, .of_same h.2⟩
  cases moved_of_step hrequest hstep with
  | received m =>
    rw [(carrier_follow _).1, (carrier_follow _).2]
    exact s.transport.sendsOthers_receive m s.outside
  | worked => exact hsame (carrier_work s)
  | judged => exact hsame ⟨rfl, rfl⟩
  | woken hmove hwake => exact hsame (carrier_wake hwake)
  | stopped => exact hsame ⟨rfl, rfl⟩

end Session

namespace Rejoining

variable {s s' s₀ : Rejoining} {occasion : Occasion} {made : List Occasion}

/-! ## There is one replay -/

/-- All that has to do with a replay has to do with the one that was asked for, if one was. -/
structure OneReplay (outside : Outside) (origin : Origin) (replay? : Option Uuid)
    (s : Rejoining) : Prop where
  /-- The peer is the same. -/
  sender : s.session.transport.origin = origin
  /-- The commands to the persistence service. -/
  commands : ∃ sent, s.session.outside.carrier.parcels = outside.carrier.parcels ++ sent ∧
    ∀ parcel ∈ sent, parcel.message.is StartReplay →
      ∃ replay id, replay? = some replay ∧
        parcel.message = .encode id (⟨replay⟩ : StartReplay) origin
  /-- While the phase has no id, there is none. -/
  unasked : s.reception.phase = .replay none → replay? = none
  /-- The phase. -/
  phase : ∀ replay, s.reception.phase.session = some replay → replay? = some replay
  /-- The calls. -/
  pleas : ∀ replay, .opened replay ∈ s.pleas → replay? = some replay

namespace OneReplay

variable {outside o : Outside} {origin : Origin} {replay? : Option Uuid}

theorem move {move : Move} (h : s.OneReplay outside origin replay?)
    (hstep : s.step (.move move) = some s') : s'.OneReplay outside origin replay? := by
  have hphase := (succeeds_step hstep).1
  obtain ⟨hrequest, session, hsession, rfl⟩ := step_move hstep
  obtain ⟨horigin, sent', hsent', hothers⟩ := Session.sendsOthers_step hrequest hsession
  obtain ⟨sent, hsent, hcommands⟩ := h.commands
  refine ⟨horigin.trans h.sender, ⟨sent ++ sent', ?_, fun parcel hparcel his ↦ ?_⟩,
    fun hnone ↦ h.unasked (hnone ▸ hphase).unasked, fun replay hreplay ↦ ?_, h.pleas⟩
  · rw [hsent', hsent, List.append_assoc]
  · obtain hbefore | hnew := List.mem_append.mp hparcel
    · exact hcommands parcel hbefore his
    · simp [hothers parcel hnew] at his
  · obtain hbefore | ⟨-, hplead⟩ := hphase.session hreplay
    · exact h.phase replay hbefore
    · cases hplead

/-- What is left when a call has returned or has gone on. -/
theorem of_pleas (h : s.OneReplay outside origin replay?) {pleas : List Plea}
    {results : List (Except Failure Unit)}
    (hpleas : ∀ replay, .opened replay ∈ pleas → .opened replay ∈ s.pleas) :
    OneReplay outside origin replay? { s with pleas, results } :=
  ⟨h.sender, h.commands, h.unasked, h.phase, fun replay hreplay ↦
    h.pleas replay (hpleas replay hreplay)⟩

/-- The replay that a call asks for is the one that was asked for before, or the first. -/
theorem opened {replay : Uuid} {t : Transport} (h : s.OneReplay outside origin replay?)
    (hopen : s.session.transport.openReplay? s.session.outside = some (replay, t, o)) :
    OneReplay outside origin (some replay)
      { s with
        session := { s.session with transport := t, outside := o }
        pleas := s.pleas ++ [.opened replay] } := by
  obtain ⟨r, hr, rfl, hcarrier⟩ := Transport.openReplay?_eq_some hopen
  obtain ⟨rfl, hphase⟩ := Reception.open?_eq_some hr
  have hbefore : ∀ replay', replay? = some replay' → replay' = replay := fun replay' hreplay' ↦ by
    obtain hsome | hnone := hphase
    · have hthis := h.phase replay (by rw [reception, hsome]; rfl)
      exact Option.some.inj (hreplay'.symm.trans hthis)
    · cases hreplay'.symm.trans (h.unasked hnone)
  obtain ⟨sent, hsent, hcommands⟩ := h.commands
  refine ⟨h.sender, ⟨sent, hcarrier ▸ hsent, fun parcel hparcel his ↦ ?_⟩, fun hnone ↦ ?_,
    fun replay' hreplay' ↦ hreplay', fun replay' hreplay' ↦ ?_⟩
  · obtain ⟨replay', id, hreplay', hmessage⟩ := hcommands parcel hparcel his
    obtain rfl := hbefore replay' hreplay'
    exact ⟨replay', id, rfl, hmessage⟩
  · cases hnone
  · obtain hmem | hmem := List.mem_append.mp hreplay'
    · exact congrArg some (hbefore replay' (h.pleas replay' hmem)).symm
    · cases List.mem_singleton.mp hmem
      rfl

theorem asked {replay : Uuid} {place : Nat} {v : View} (h : s.OneReplay outside origin replay?)
    (hplea : s.pleas[place]? = some (.opened replay))
    (hask : (s.session.transport.askReplay v replay s.session.outside).1 = o) :
    OneReplay outside origin replay? { s with session := { s.session with outside := o } } := by
  obtain ⟨sent', hsent', hcommand⟩ :=
    s.session.transport.parcels_askReplay v replay s.session.outside
  obtain ⟨sent, hsent, hcommands⟩ := h.commands
  refine ⟨h.sender, ⟨sent ++ sent', ?_, fun parcel hparcel his ↦ ?_⟩, h.unasked, h.phase,
    h.pleas⟩
  · rw [← hask, hsent', hsent, List.append_assoc]
  · obtain hbefore | hnew := List.mem_append.mp hparcel
    · exact hcommands parcel hbefore his
    · obtain ⟨id, hmessage⟩ := hcommand parcel hnew
      rw [h.sender] at hmessage
      exact ⟨replay, id, h.pleas replay (List.mem_of_getElem? hplea), hmessage⟩

theorem step (h : s.OneReplay outside origin replay?) (hstep : s.step occasion = some s') :
    ∃ replay?, s'.OneReplay outside origin replay? := by
  by_cases hmove : ∃ move, occasion = .move move
  · obtain ⟨move, rfl⟩ := hmove
    exact ⟨replay?, h.move hstep⟩
  · cases call_of_step (fun move hoccasion ↦ hmove ⟨move, hoccasion⟩) hstep with
    | needless => exact ⟨replay?, h.of_pleas fun _ hmem ↦ hmem⟩
    | opened hopen => exact ⟨_, h.opened hopen⟩
    | asked hplea hask hpleas =>
      refine ⟨replay?, (h.asked hplea hask).of_pleas fun replay hmem ↦ ?_⟩
      obtain rfl | rfl := hpleas
      · exact List.mem_of_mem_eraseIdx hmem
      · obtain hmem | heq := List.mem_or_eq_of_mem_set hmem
        · exact hmem
        · cases heq
    | returned => exact ⟨replay?, h.of_pleas fun _ hmem ↦ List.mem_of_mem_eraseIdx hmem⟩
    | left => exact ⟨replay?, h.of_pleas fun _ hmem ↦ List.mem_of_mem_eraseIdx hmem⟩

end OneReplay

theorem oneReplay_start (settings : Settings) (origin : Origin) (outside : Outside) :
    (start settings origin outside).OneReplay outside origin none where
  sender := rfl
  commands := ⟨[], (List.append_nil _).symm, by simp⟩
  unasked _ := rfl
  phase replay hreplay := by
    cases hpersistent : settings.persistent <;>
      simp [reception, start, Session.start, Transport.ofSettings, Reception.start,
        hpersistent, Phase.session] at hreplay
  pleas := by simp [start]

/-! ## What belongs to another replay -/

/-- A message of the persistence service that belongs to a replay. -/
inductive BelongsTo (m : Envelope) (replay : Uuid) : Prop
  | replayed (body : Replayed) (h : m.decode Replayed = .ok body) (hreplay : body.replay = replay)
  | replayPhaseEnded (body : ReplayPhaseEnded) (h : m.decode ReplayPhaseEnded = .ok body)
      (hreplay : body.replay = replay)
  | safetyPhaseEnded (body : SafetyPhaseEnded) (h : m.decode SafetyPhaseEnded = .ok body)
      (hreplay : body.replay = replay)

/-- A message of another replay than the one going on is given notice of, and nothing more. -/
theorem step_of_belongsTo {m : Envelope} {replay : Uuid} (hm : BelongsTo m replay)
    (hother : s.reception.phase.session ≠ some replay)
    (hstep : s.step (.move (.receive m)) = some s') :
    ∃ notices, s' = { s with session := s.session.update s.reception notices } := by
  obtain ⟨-, session, hsession, rfl⟩ := step_move hstep
  rw [reception] at hother
  rw [Session.step] at hsession
  split at hsession
  · cases hsession
  · obtain rfl := Option.some.inj hsession
    cases hm with
    | replayed body h hreplay =>
      subst hreplay
      rw [Transport.receive_replayed h, Reception.receiveReplayed_of_ne hother,
        Session.follow_nothing]
      exact ⟨_, rfl⟩
    | replayPhaseEnded body h hreplay =>
      subst hreplay
      obtain ⟨notices, hend⟩ := Reception.endReplayPhase_of_ne hother
      rw [Transport.receive_replayPhaseEnded h, hend, Session.follow_nothing]
      exact ⟨notices, rfl⟩
    | safetyPhaseEnded body h hreplay =>
      subst hreplay
      obtain ⟨notices, hend⟩ := Reception.endSafetyPhase_of_ne hother
      rw [Transport.receive_safetyPhaseEnded h, hend, Session.follow_nothing]
      exact ⟨notices, rfl⟩

/-- In the course of some occasions the persistence service has begun the replay that was going on
then. -/
def HasBegun (s₀ : Rejoining) (made : List Occasion) : Prop :=
  ∃ before m after s, made = before ++ .move (.receive m) :: after ∧ s₀.run before = some s ∧
    Begins s.reception.phase m

theorem HasBegun.concat (h : s₀.HasBegun made) (occasion : Occasion) :
    s₀.HasBegun (made ++ [occasion]) := by
  obtain ⟨before, m, after, s, rfl, hrun, hbegins⟩ := h
  exact ⟨before, m, after ++ [occasion], s, by simp, hrun, hbegins⟩

/-- Once the replay phase is over, the replay has begun, and a call can have succeeded only then. -/
def Sound (s₀ : Rejoining) (made : List Occasion) (s : Rejoining) : Prop :=
  (∃ session, s.reception.phase = .replay session) ∧ s.reception.replayBegun = false ∧
    .ok () ∉ s.results ∨ s₀.HasBegun made

theorem Sound.step (hrun : s₀.run made = some s) (h : Sound s₀ made s)
    (hstep : s.step occasion = some s') : Sound s₀ (made ++ [occasion]) s' := by
  obtain ⟨⟨session, hphase⟩, hnot, hresults⟩ | hbegun := h
  · by_cases hbegins : ∃ m, occasion = .move (.receive m) ∧ Begins s.reception.phase m
    · obtain ⟨m, rfl, hbegins⟩ := hbegins
      exact Or.inr ⟨made, m, [], s, rfl, hrun, hbegins⟩
    · obtain ⟨hsucceeds, hbegun⟩ := succeeds_step hstep
      refine Or.inl ⟨?_, ?_, ?_⟩
      · rw [hphase] at hsucceeds
        generalize hafter : s'.reception.phase = after at hsucceeds ⊢
        cases hsucceeds with
        | same => exact ⟨session, rfl⟩
        | opened replay => exact ⟨some replay, rfl⟩
        | @replayEnded m body h =>
          exact absurd ⟨m, rfl, .replayPhaseEnded body h (by rw [hphase]; rfl)⟩ hbegins
      · refine Bool.eq_false_iff.mpr fun hafter ↦ ?_
        obtain hbefore | hbegins' := hbegun hafter
        · cases hnot.symm.trans hbefore
        · exact hbegins hbegins'
      · by_cases hmove : ∃ move, occasion = .move move
        · obtain ⟨move, rfl⟩ := hmove
          obtain ⟨-, session, -, rfl⟩ := step_move hstep
          exact hresults
        · cases call_of_step (fun move hoccasion ↦ hmove ⟨move, hoccasion⟩) hstep with
          | needless hnone =>
            exact absurd hphase (Reception.not_replay_of_open?_eq_none
              (Transport.openReplay?_eq_none hnone) session)
          | opened => exact hresults
          | asked _ _ _ hok => exact fun hmem ↦ hresults (hok hmem)
          | left => exact hresults
          | returned hok =>
            intro hmem
            obtain hmem | hmem := List.mem_append.mp hmem
            · exact hresults hmem
            · cases hnot.symm.trans (hok (List.mem_singleton.mp hmem).symm)
  · exact Or.inr (hbegun.concat occasion)

/-! ## Every run -/

theorem forward_of_run {later : List Occasion} (hrun : s.run later = some s') :
    s.reception.phase.rank ≤ s'.reception.phase.rank ∧
      (s'.reception.phase = .direct ↔ s.reception.phase = .direct) := by
  refine run_keeps (fun _ s' ↦ s.reception.phase.rank ≤ s'.reception.phase.rank ∧
    (s'.reception.phase = .direct ↔ s.reception.phase = .direct)) ?_ ⟨Nat.le_refl _, Iff.rfl⟩ hrun
  intro _ _ _ _ _ hbefore hstep
  obtain ⟨hrank, hdirect⟩ := (succeeds_step hstep).1.forward
  exact ⟨Nat.le_trans hbefore.1 hrank, hdirect.trans hbefore.2⟩

/-- Before the first call there is no replay that anything could belong to. -/
theorem session_of_not_plead {settings : Settings} {origin : Origin} {outside : Outside}
    (hrun : (start settings origin outside).run made = some s) (hplead : .plead ∉ made) :
    s.reception.phase.session = none := by
  refine run_keeps (fun made s ↦ .plead ∉ made → s.reception.phase.session = none)
    ?_ (fun _ ↦ ?_) hrun hplead
  · intro made occasion s s' _ hbefore hstep hplead
    rw [List.mem_append, List.mem_singleton, not_or] at hplead
    refine Option.eq_none_iff_forall_ne_some.mpr fun replay hreplay ↦ ?_
    obtain hsession | ⟨-, rfl⟩ := (succeeds_step hstep).1.session hreplay
    · cases (hbefore hplead.1).symm.trans hsession
    · exact hplead.2 rfl
  · cases hpersistent : settings.persistent <;>
      simp [reception, start, Session.start, Transport.ofSettings, Reception.start, hpersistent,
        Phase.session]

/-- **There is one replay.**  In every run of a transport in which any number of calls ask for the
replay, at any time and side by side,

* the phase goes on only as `Phase.Succeeds` says, hence never back, and a transport without a
  replay stays so;
* all commands to the persistence service have one id, which is that of the phase;
* a message that belongs to another replay than that of the phase, or comes in before the first
  call, changes nothing;
* if messages are kept for the peer, no call has succeeded unless the persistence service has begun
  the replay by a message that belongs to it. -/
theorem replay_of_run {settings : Settings} {origin : Origin} {outside : Outside}
    {made : List Occasion} {s : Rejoining}
    (hrun : (start settings origin outside).run made = some s) :
    ((∀ occasion s', s.step occasion = some s' →
        s.reception.phase.Succeeds occasion s'.reception.phase) ∧
      ∀ later s', s.run later = some s' →
        s.reception.phase.rank ≤ s'.reception.phase.rank ∧
          (s'.reception.phase = .direct ↔ s.reception.phase = .direct)) ∧
    (∃ replay sent, s.session.outside.carrier.parcels = outside.carrier.parcels ++ sent ∧
      (∀ replay', s.reception.phase.session = some replay' → replay' = replay) ∧
      ∀ parcel ∈ sent, parcel.message.is StartReplay →
        ∃ id, parcel.message = .encode id (⟨replay⟩ : StartReplay) origin) ∧
    (∀ m replay s', BelongsTo m replay →
      s.reception.phase.session ≠ some replay ∨ .plead ∉ made →
      s.step (.move (.receive m)) = some s' →
      ∃ notices, s' = { s with session := s.session.update s.reception notices }) ∧
    (settings.persistent = true → .ok () ∈ s.results →
      (start settings origin outside).HasBegun made) := by
  refine ⟨⟨fun occasion s' hstep ↦ (succeeds_step hstep).1, fun later s' ↦ forward_of_run⟩, ?_,
    fun m replay s' hm hother hstep ↦ ?_, fun hpersistent hok ↦ ?_⟩
  · obtain ⟨replay?, hone⟩ := run_keeps
      (fun _ s ↦ ∃ replay?, s.OneReplay outside origin replay?)
      (fun _ ⟨_, hbefore⟩ hstep ↦ hbefore.step hstep)
      ⟨none, oneReplay_start settings origin outside⟩ hrun
    obtain ⟨sent, hsent, hcommands⟩ := hone.commands
    refine ⟨replay?.getD .zero, sent, hsent, fun replay hreplay ↦ ?_, fun parcel hparcel his ↦ ?_⟩
    · rw [hone.phase replay hreplay, Option.getD_some]
    · obtain ⟨replay, id, hreplay, hmessage⟩ := hcommands parcel hparcel his
      exact ⟨id, by rw [hreplay, Option.getD_some, hmessage]⟩
  · refine step_of_belongsTo hm ?_ hstep
    obtain hother | hplead := hother
    · exact hother
    · simp [session_of_not_plead hrun hplead]
  · have hstart : Sound (start settings origin outside) [] (start settings origin outside) :=
      Or.inl ⟨⟨none, by simp [reception, start, Session.start, Transport.ofSettings,
        Reception.start, hpersistent]⟩, rfl, by simp [start]⟩
    obtain ⟨-, -, hresults⟩ | hbegun :=
      run_keeps (fun made s ↦ Sound (start settings origin outside) made s) Sound.step hstart hrun
    · exact absurd hok hresults
    · exact hbegun

open Session (fromService decode_fromService)

/-- A directory that knows a server of the persistence service. -/
def withService : View where
  roster := ⟨#[{ endPoint := "tcp://Bus.PersistenceService.0:1" }]⟩
  handlers := fun _ ↦ [⟨.persistence "0", 0⟩]
  isPersistent := fun _ ↦ false

/-- The end of the replay phase of another replay. -/
def endsAnother : Envelope := fromService (ReplayPhaseEnded.mk (.fresh 7))

/-- Two calls ask for the replay side by side, the end of another one comes in, and then the end of
this one; both calls see it. -/
def asksTwice : List Occasion :=
  [.plead, .plead, .ask 0 withService, .ask 1 withService, .move (.receive endsAnother),
    .move (.receive (fromService (ReplayPhaseEnded.mk (.fresh 0)))), .notice 0, .notice 0]

/-- Both calls have asked for the same replay, and both succeed when it has begun; the end of
another replay does nothing once more. -/
theorem results_asksTwice :
    ∃ s s', (start { persistent := true } ⟨⟨"Abc.Self.0"⟩, ""⟩ {}).run asksTwice = some s ∧
      s.results.map Except.isOk = [true, true] ∧ s.reception.phase = .safety (.fresh 0) ∧
      (start { persistent := true } ⟨⟨"Abc.Self.0"⟩, ""⟩ {}).HasBegun asksTwice ∧
      (∃ sent, s.session.outside.carrier.parcels = sent ∧ sent.length = 2 ∧
        ∀ parcel ∈ sent, parcel.message.is StartReplay →
          ∃ id, parcel.message = .encode id (⟨.fresh 0⟩ : StartReplay) ⟨⟨"Abc.Self.0"⟩, ""⟩) ∧
      s.step (.move (.receive endsAnother)) = some s' ∧
      ∃ notices, s' = { s with session := s.session.update s.reception notices } := by
  have hdone : ((start { persistent := true } ⟨⟨"Abc.Self.0"⟩, ""⟩ {}).run asksTwice).map
      (fun s ↦ (s.results.map Except.isOk, s.reception.phase,
        s.session.outside.carrier.parcels.length,
        (s.step (.move (.receive endsAnother))).isSome)) =
      some ([true, true], .safety (.fresh 0), 2, true) := by decide +kernel
  obtain ⟨s, hrun, hfacts⟩ := Option.map_eq_some_iff.mp hdone
  obtain ⟨hresults, hphase, hlength, hstep⟩ : s.results.map Except.isOk = [true, true] ∧
      s.reception.phase = .safety (.fresh 0) ∧ s.session.outside.carrier.parcels.length = 2 ∧
      (s.step (.move (.receive endsAnother))).isSome = true := by simpa using hfacts
  obtain ⟨s', hstep⟩ := Option.isSome_iff_exists.mp hstep
  have hok : .ok () ∈ s.results := by
    obtain ⟨result, hresult, his⟩ := List.mem_map.mp
      (show true ∈ s.results.map Except.isOk by simp [hresults])
    cases result with
    | ok => exact hresult
    | error failure => cases his
  have hanother : BelongsTo endsAnother (.fresh 7) :=
    .replayPhaseEnded ⟨.fresh 7⟩ (decode_fromService (by decide +kernel)) rfl
  obtain ⟨-, ⟨replay, sent, hsent, hsession, hcommands⟩, hignored, hbegun⟩ := replay_of_run hrun
  obtain rfl : .fresh 0 = replay := hsession (.fresh 0) (by rw [hphase]; rfl)
  have hother : s.reception.phase.session ≠ some (.fresh 7) := by
    rw [hphase]
    decide
  refine ⟨s, s', hrun, hresults, hphase, hbegun rfl hok,
    ⟨sent, hsent, ?_, hcommands⟩, hstep, hignored _ _ _ hanother (Or.inl hother) hstep⟩
  rw [← hlength, hsent]
  rfl

end Rejoining

end ServiceBus.Durable
