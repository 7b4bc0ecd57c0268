import ServiceBus.Proofs.Durable.Duplicates

/-!
# Copies of a message that was refused

Before the phase is normal the worker passes over a message whose id is known.  An id becomes known
when a copy is *offered*; the listener has not yet said anything to it then, and whatever it says
later takes nothing back.

A `Docket` keeps what the listener says during a run.  `Session.Heeds` ties it to the ids that are
known: they are those of the copies that the listener has answered, and of the one that it is
working at.  As the worker takes no message while another one is not answered, `skip_iff_answered`
follows: a copy is passed over just if another one was answered, and it plays no part how.  In
particular a message is passed over if all its copies were refused, and
`skips?_refusesReplayed_refusesHeld` shows two.
-/

set_option autoImplicit false

namespace ServiceBus.Durable

/-- What the listener has said to the messages that it was offered, each with its id. -/
structure Docket where
  /-- To those that were replayed in the replay phase or offered by the worker, since the worker
  goes by them. -/
  answers : List (Uuid × Verdict) := []
  /-- To all others. -/
  others : List (Uuid × Verdict) := []
  /-- The message that the worker has offered and that is not answered yet. -/
  pending : Option Uuid := none

namespace Docket

/-- A copy of a message was accepted. -/
def Accepted (d : Docket) (id : Uuid) : Prop := (id, .accepted) ∈ d.answers ++ d.others

/-- Copies of a message were answered since the worker goes by them, and none was ever accepted. -/
def OnlyRefused (d : Docket) (id : Uuid) : Prop :=
  (∃ verdict, (id, verdict) ∈ d.answers) ∧ ¬ d.Accepted id

theorem mem_ids_answers {d : Docket} {id : Uuid} :
    id ∈ d.answers.map Prod.fst ↔ ∃ verdict, (id, verdict) ∈ d.answers := by
  simp

end Docket

/-! ## The message that the worker has offered -/

/-- The message that the worker has offered and that is not answered yet. -/
def Worker.offering? : Worker → Option Envelope
  | .offering m => some m
  | _ => none

namespace Reception

variable {r : Reception}

theorem worker_hold (r : Reception) (m : Envelope) : (r.hold m).1.worker = r.worker := by
  rw [hold]
  split <;> rfl

theorem worker_receiveLive (r : Reception) (m : Envelope) :
    (r.receiveLive m).1.worker = r.worker := by
  rw [receiveLive]
  split
  · exact worker_hold r m
  · exact worker_hold r m
  · rfl
  · rfl

theorem worker_receiveReplayed (r : Reception) (body : Replayed) :
    (r.receiveReplayed body).1.worker = r.worker := by
  rw [receiveReplayed]
  split
  · dsimp only
    split
    · exact worker_hold _ _
    · rfl
  · rfl

theorem worker_endSafetyPhase (r : Reception) (session : Uuid) :
    (r.endSafetyPhase session).1.worker = r.worker := by
  rw [endSafetyPhase]
  split
  · split <;> rfl
  · rfl

theorem worker_stop (r : Reception) : r.stop.1.worker = r.worker := by
  rw [stop]
  split <;> rfl

theorem worker_open? {fresh session : Uuid} {r' : Reception}
    (h : r.open? fresh = some (session, r')) : r'.worker = r.worker := by
  unfold open? at h
  split at h
  · obtain rfl := (Prod.mk.inj (Option.some.inj h)).2
    rfl
  · obtain rfl := (Prod.mk.inj (Option.some.inj h)).2
    rfl
  · cases h

/-- The worker that starts has offered nothing. -/
theorem offering?_endReplayPhase (session : Uuid)
    (h : ∀ session, r.phase = .replay session → r.worker = .absent) :
    (r.endReplayPhase session).1.worker.offering? = r.worker.offering? := by
  rw [endReplayPhase]
  split
  · next current hphase =>
    rw [h current hphase]
    split
    · rfl
    · rw [h current hphase]
  · rfl

/-- The worker that takes no message comes to its end, if anything. -/
theorem offering?_turn_of_rest (h : r.turn.2 = .rest) :
    r.turn.1.worker.offering? = r.worker.offering? := by
  unfold turn at h ⊢
  split at h
  · split at h <;> cases h
  · next hidle _ =>
    dsimp only
    split
    · rw [hidle]
      rfl
    · rfl
  · rfl

end Reception

namespace Session

/-- The message that the worker passes over next. -/
def skips? (s : Session) : Option Uuid :=
  match s.transport.reception.turn.2 with
  | .skip id => some id
  | _ => none

/-! ## The docket of a run -/

/-- The docket after a move that leads to the given session.  The move comes with what the listener
says to the message that it is offered at once, if it is offered one. -/
def hear (s s' : Session) (d : Docket) : Move × Verdict → Docket
  | (.receive m, verdict) =>
    match s.replayedBy? (.receive m) with
    | some message => { d with answers := d.answers ++ [(message.id, verdict)] }
    | none =>
      { d with
        others := d.others ++ (s'.offers.drop s.offers.length).map fun m ↦ (m.id, verdict) }
  | (.turn, _) =>
    match s.transport.reception.turn.2 with
    | .offer m => { d with pending := some m.id }
    | _ => d
  | (.judge verdict, _) =>
    match d.pending with
    | some id => { d with answers := d.answers ++ [(id, verdict)], pending := none }
    | none =>
      -- the message was offered before the ids were forgotten
      { d with
        others := d.others ++
          s.transport.reception.worker.offering?.toList.map fun m ↦ (m.id, verdict) }
  | (.joined, _) | (.late, _) =>
    match s.waiting with
    | some (.phaseEnd _) => { answers := [], others := d.others ++ d.answers }
    | _ => d
  | _ => d

/-- The docket after some moves. -/
def docket : Session → Docket → List (Move × Verdict) → Docket
  | _, d, [] => d
  | s, d, deal :: deals =>
    match s.step deal.1 with
    | some s' => s'.docket (s.hear s' d deal) deals
    | none => d

/-! ## The docket is right -/

/-- The docket fits the session. -/
structure Heeds (d : Docket) (s : Session) : Prop where
  /-- There is a listener. -/
  listener : s.transport.hasListener = true
  /-- In the replay phase there is no worker yet. -/
  replaying : ∀ session, s.transport.reception.phase = .replay session →
    s.transport.reception.worker = .absent
  /-- The ids that the worker goes by. -/
  known : ∀ id, id ∈ s.transport.reception.offered ↔
    id ∈ d.answers.map Prod.fst ∨ d.pending = some id
  /-- What is not answered is what the worker is at. -/
  pending : ∀ id, d.pending = some id →
    s.transport.reception.worker.offering?.map Envelope.id = some id

variable {d d' : Docket} {s s' : Session}

theorem heeds_start (settings : Settings) (origin : Origin) (outside : Outside) :
    (start settings origin outside).Heeds {} := by
  refine ⟨rfl, fun _ _ ↦ rfl, fun id ↦ ?_, nofun⟩
  simp [start, Transport.ofSettings, Reception.start]

namespace Heeds

/-- The worker that is at no message leaves nothing pending. -/
theorem pending_eq_none (h : s.Heeds d)
    (hworker : s.transport.reception.worker.offering? = none) : d.pending = none := by
  cases hpending : d.pending with
  | none => rfl
  | some id =>
    have hat := h.pending id hpending
    rw [hworker] at hat
    cases hat

/-- Nothing is offered that the worker goes by, and nothing is answered or forgotten. -/
theorem still (h : s.Heeds d) (hreception : s.transport.reception.Proceeds s'.transport.reception)
    (hlistener : s'.transport.hasListener = s.transport.hasListener)
    (hworker : s'.transport.reception.worker.offering? =
      s.transport.reception.worker.offering?)
    (hanswers : d'.answers = d.answers) (hpending : d'.pending = d.pending) : s'.Heeds d' where
  listener := hlistener.trans h.listener
  replaying session hsession := by
    obtain ⟨⟨session', hsession'⟩, habsent⟩ := hreception.replay session hsession
    exact habsent (h.replaying session' hsession')
  known id := by
    rw [hreception.offered, hanswers, hpending]
    exact h.known id
  pending id hid := by
    rw [hworker]
    exact h.pending id (hpending ▸ hid)

theorem request {v : Directory.View} (h : s.Heeds d) (hstep : s.step (.request v) = some s') :
    s'.Heeds d := by
  have hquiet := quiet_request hstep
  refine h.still hquiet.reception hquiet.listener ?_ rfl rfl
  rw [(step_request hstep).1, Transport.requestReplay_fst]
  cases hopen : s.transport.reception.open? s.outside.fresh.1 with
  | none => rfl
  | some opened => exact congrArg Worker.offering? (Reception.worker_open? hopen)

/-! ### A message comes in -/

/-- The docket after a message that is not replayed in the replay phase. -/
theorem hear_receive {m : Envelope} {verdict : Verdict}
    (h : s.replayedBy? (.receive m) = none) :
    (s.hear s' d (.receive m, verdict)).answers = d.answers ∧
      (s.hear s' d (.receive m, verdict)).pending = d.pending := by
  rw [hear, h]
  exact ⟨rfl, rfl⟩

theorem receiveOther {m : Envelope} {verdict : Verdict} (h : s.Heeds d)
    (hreplayed : s.replayedBy? (.receive m) = none)
    (hreception : s.transport.reception.Proceeds s'.transport.reception)
    (hlistener : s'.transport.hasListener = s.transport.hasListener)
    (hworker : s'.transport.reception.worker.offering? =
      s.transport.reception.worker.offering?) :
    s'.Heeds (s.hear s' d (.receive m, verdict)) :=
  h.still hreception hlistener hworker (hear_receive hreplayed).1 (hear_receive hreplayed).2

theorem receiveLive {m : Envelope} {verdict : Verdict} (h : s.Heeds d) (hm : isLive m) :
    (s.follow (s.transport.react (s.transport.reception.receiveLive m) s.outside)).Heeds
      (s.hear (s.follow (s.transport.react (s.transport.reception.receiveLive m) s.outside)) d
        (.receive m, verdict)) := by
  have hunread : s.replayedBy? (.receive m) = none := by
    refine replayedBy?_of_unread fun body hbody ↦ ?_
    simp [isLive_eq_false_of_decode_replayed hbody] at hm
  have hworker := s.transport.reception.worker_receiveLive m
  obtain ⟨notices, hhold⟩ | ⟨-, hoffer⟩ := s.transport.reception.receiveLive_eq_or m
  · rw [hhold] at hworker ⊢
    rw [follow_nothing]
    exact h.receiveOther hunread (Reception.proceeds_hold _ m) rfl (congrArg _ hworker)
  · rw [hoffer, follow_offer h.listener, update_self]
    exact h.receiveOther hunread (.refl _) rfl rfl

theorem exists_of_replayedBy? {m message : Envelope}
    (h : s.replayedBy? (.receive m) = some message) :
    ∃ body, m.decode Replayed = .ok body ∧
      s.transport.reception.phase = .replay (some body.replay) ∧
      message = { body.message with replayed := true } := by
  rw [replayedBy?] at h
  split at h
  · next body hbody =>
    split at h
    · next hphase => exact ⟨body, hbody, hphase, (Option.some.inj h).symm⟩
    · cases h
  · cases h

/-- A message that is replayed in the replay phase is offered at once. -/
theorem offers_of_replayedBy? {m message : Envelope} (h : s.Heeds d)
    (hreplayed : s.replayedBy? (.receive m) = some message)
    (hstep : s.step (.receive m) = some s') : s'.offers = s.offers ++ [message] := by
  obtain ⟨body, hbody, hphase, rfl⟩ := exists_of_replayedBy? hreplayed
  rw [Session.step] at hstep
  split at hstep
  · cases hstep
  · obtain rfl := Option.some.inj hstep
    rw [Transport.receive_replayed hbody, Reception.receiveReplayed_of_replay hphase,
      follow_offer h.listener]

theorem receiveEarly {m : Envelope} {body : Replayed} {verdict : Verdict} (h : s.Heeds d)
    (hbody : m.decode Replayed = .ok body)
    (hphase : s.transport.reception.phase = .replay (some body.replay)) :
    (s.follow (s.transport.react (s.transport.reception.receiveReplayed body) s.outside)).Heeds
      (s.hear (s.follow (s.transport.react (s.transport.reception.receiveReplayed body)
        s.outside)) d (.receive m, verdict)) := by
  have habsent := h.replaying _ hphase
  have hnone : d.pending = none := h.pending_eq_none (by rw [habsent]; rfl)
  have hreplayed : s.replayedBy? (.receive m) =
      some { body.message with replayed := true } := by
    simp [replayedBy?, hbody, hphase]
  rw [hear, hreplayed, Reception.receiveReplayed_of_replay hphase, follow_offer h.listener]
  refine ⟨h.listener, fun _ _ ↦ habsent, fun id ↦ ?_, fun id hid ↦ ?_⟩
  · have hknown := h.known id
    simp only [hnone, reduceCtorEq, or_false] at hknown
    simp only [update, hnone, reduceCtorEq, or_false, List.map_append, List.mem_append,
      List.map_singleton, List.mem_singleton, ← hknown]
    split
    · next hthere => exact ⟨Or.inl, fun hid ↦ hid.elim (fun hid ↦ hid) fun hid ↦ hid ▸ hthere⟩
    · rw [List.mem_cons, or_comm]
  · cases hnone.symm.trans hid

theorem receive {m : Envelope} {verdict : Verdict} (h : s.Heeds d)
    (hstep : s.step (.receive m) = some s') :
    s'.Heeds (s.hear s' d (.receive m, verdict)) := by
  cases received_of_step hstep with
  | aside unread reception listener waiting offers =>
    exact h.receiveOther (replayedBy?_of_unread unread) (reception ▸ .refl _) listener
      (by rw [reception])
  | live free kind => exact h.receiveLive kind
  | @replayed body free kind =>
    by_cases hphase : s.transport.reception.phase = .replay (some body.replay)
    · exact h.receiveEarly kind hphase
    · have hworker := s.transport.reception.worker_receiveReplayed body
      obtain ⟨r, notices, hreceive, hproceeds⟩ := Reception.receiveReplayed_of_not_replay hphase
      rw [hreceive] at hworker ⊢
      rw [follow_nothing]
      exact h.receiveOther (by simp [replayedBy?, kind, hphase]) hproceeds rfl
        (congrArg _ hworker)
  | @replayPhaseEnded body free kind =>
    exact h.receiveOther
      (replayedBy?_of_unread (decode_replayed_ne_of_decode kind (by decide)))
      (Reception.proceeds_endReplayPhase _ _) rfl
      (Reception.offering?_endReplayPhase body.replay h.replaying)
  | @safetyPhaseEnded body free kind =>
    have hquiet := (quiet_endSafetyPhase (s := s) body.replay).1
    refine h.receiveOther
      (replayedBy?_of_unread (decode_replayed_ne_of_decode kind (by decide)))
      hquiet.reception hquiet.listener (congrArg _ ?_)
    rw [reception_follow_react]
    exact s.transport.reception.worker_endSafetyPhase body.replay

/-! ### The worker -/

theorem turn {verdict : Verdict} (h : s.Heeds d) (hstep : s.step .turn = some s') :
    s'.Heeds (s.hear s' d (.turn, verdict)) := by
  obtain rfl := Option.some.inj hstep
  rw [hear]
  by_cases hmore : s.transport.reception.worker = .idle → s.transport.reception.queue = []
  · obtain ⟨hproceeds, hrest⟩ := Reception.proceeds_turn hmore
    rw [work_of_rest (Prod.ext rfl hrest), hrest]
    exact h.still hproceeds rfl (Reception.offering?_turn_of_rest hrest) rfl rfl
  · obtain ⟨hidle, hqueue⟩ := Classical.not_imp.mp hmore
    obtain ⟨m, rest, hqueue⟩ := List.exists_cons_of_ne_nil hqueue
    have hnone : d.pending = none := h.pending_eq_none (by rw [hidle]; rfl)
    by_cases hseen : m.id ∈ s.transport.reception.offered
    · have hturn := Reception.turn_of_mem hidle hqueue hseen
      rw [work_of_skip hturn, hturn]
      exact h.still (.of_same rfl rfl (fun h ↦ h) fun h ↦ h) rfl rfl rfl rfl
    · have hturn := Reception.turn_of_not_mem hidle hqueue hseen
      rw [work_of_offer h.listener hturn, hturn]
      refine ⟨h.listener, fun session hsession ↦ ?_, fun id ↦ ?_, fun id hid ↦ hid⟩
      · cases hidle.symm.trans (h.replaying session hsession)
      · have hknown := h.known id
        rw [hnone] at hknown
        simp only [update, List.mem_cons, hknown, reduceCtorEq, or_false, Option.some.injEq]
        rw [or_comm, eq_comm (a := id)]

/-- What is answered is not pending any more. -/
theorem hear_judge (s s' : Session) (d : Docket) (verdict verdict' : Verdict) :
    (s.hear s' d (.judge verdict, verdict')).pending = none ∧
      ∀ id, id ∈ (s.hear s' d (.judge verdict, verdict')).answers.map Prod.fst ↔
        id ∈ d.answers.map Prod.fst ∨ d.pending = some id := by
  rw [hear]
  cases hpending : d.pending with
  | none => simp
  | some pending => simp [eq_comm]

theorem judge {verdict verdict' : Verdict} (h : s.Heeds d)
    (hstep : s.step (.judge verdict) = some s') :
    s'.Heeds (s.hear s' d (.judge verdict, verdict')) := by
  rw [step] at hstep
  split at hstep
  · next m hworker =>
    obtain rfl := Option.some.inj hstep
    have hproceeds := s.transport.reception.proceeds_judge verdict
    refine ⟨h.listener, fun session hsession ↦ ?_, fun id ↦ ?_, fun id hid ↦ ?_⟩
    · obtain ⟨⟨session', hsession'⟩, -⟩ := hproceeds.replay session hsession
      cases hworker.symm.trans (h.replaying session' hsession')
    · obtain ⟨hnone, hanswers⟩ := hear_judge s (s.update _ _) d verdict verdict'
      rw [hnone, hanswers]
      show id ∈ (s.transport.reception.judge verdict).1.offered ↔ _
      rw [hproceeds.offered, h.known]
      simp
    · cases (hear_judge _ _ d verdict verdict').1.symm.trans hid
  · cases hstep

/-- When the safety phase ends, the ids are forgotten. -/
theorem wake {move : Move} {verdict : Verdict} (h : s.Heeds d) (hwake : s.wake = some s')
    (hmove : move = .joined ∨ move = .late) : s'.Heeds (s.hear s' d (move, verdict)) := by
  have hhear : s.hear s' d (move, verdict) =
      match s.waiting with
      | some (.phaseEnd _) => { answers := [], others := d.others ++ d.answers }
      | _ => d := by
    obtain rfl | rfl := hmove <;> rfl
  rw [hhear]
  obtain ⟨-, -, hlistener, ⟨hwaiting, hreception⟩ | ⟨session, hwaiting, hreception⟩⟩ :=
    wake_cases hwake
  · rw [hwaiting]
    exact h.still (hreception ▸ .refl _) hlistener (by rw [hreception]) rfl rfl
  · rw [hwaiting]
    refine ⟨hlistener.trans h.listener, fun session hsession ↦ ?_, fun id ↦ ?_, nofun⟩
    · rw [hreception] at hsession ⊢
      exact h.replaying session hsession
    · simp [hreception]

theorem stop (h : s.Heeds d) (hstep : s.step .stop = some s') : s'.Heeds d := by
  rw [Session.step] at hstep
  split at hstep
  · cases hstep
  · obtain rfl := Option.some.inj hstep
    exact h.still (Reception.proceeds_stop _) rfl (congrArg _ (Reception.worker_stop _)) rfl rfl

theorem step {deal : Move × Verdict} (h : s.Heeds d) (hstep : s.step deal.1 = some s') :
    s'.Heeds (s.hear s' d deal) := by
  obtain ⟨move, verdict⟩ := deal
  cases move with
  | request v => exact h.request hstep
  | receive m => exact h.receive hstep
  | turn => exact h.turn hstep
  | judge verdict => exact h.judge hstep
  | joined =>
    dsimp only at hstep
    rw [Session.step] at hstep
    split at hstep
    · exact h.wake hstep (Or.inl rfl)
    · cases hstep
  | late =>
    dsimp only at hstep
    rw [Session.step] at hstep
    split at hstep
    · cases hstep
    · exact h.wake hstep (Or.inr rfl)
  | stop => exact h.stop hstep

theorem run {deals : List (Move × Verdict)} (h : s.Heeds d)
    (hrun : s.run (deals.map Prod.fst) = some s') : s'.Heeds (s.docket d deals) := by
  induction deals generalizing s d with
  | nil =>
    obtain rfl := Option.some.inj hrun
    exact h
  | cons deal deals ih =>
    obtain ⟨s₁, hstep, hrest⟩ := run_cons_eq_some hrun
    rw [docket, hstep]
    exact ih (h.step hstep) hrest

/-- What the worker takes it passes over if a copy was answered, and offers otherwise. -/
theorem turn_of_takenBy? {m : Envelope} (h : s.Heeds d) (htaken : s.takenBy? .turn = some m) :
    (s.skips? = some m.id ∧ s.work.offers = s.offers ∧ ∃ verdict, (m.id, verdict) ∈ d.answers) ∨
      (s.skips? = none ∧ s.work.offers = s.offers ++ [m] ∧
        ∀ verdict, (m.id, verdict) ∉ d.answers) := by
  rw [takenBy?] at htaken
  split at htaken
  · next hidle =>
    obtain ⟨rest, hqueue⟩ := List.head?_eq_some_iff.mp htaken
    have hknown := h.known m.id
    rw [h.pending_eq_none (by rw [hidle]; rfl), Docket.mem_ids_answers] at hknown
    simp only [reduceCtorEq, or_false] at hknown
    by_cases hseen : m.id ∈ s.transport.reception.offered
    · have hturn := Reception.turn_of_mem hidle hqueue hseen
      exact Or.inl ⟨by rw [skips?, hturn], by rw [work_of_skip hturn]; rfl, hknown.mp hseen⟩
    · have hturn := Reception.turn_of_not_mem hidle hqueue hseen
      exact Or.inr ⟨by rw [skips?, hturn], by rw [work_of_offer h.listener hturn],
        fun verdict hverdict ↦ hseen (hknown.mpr ⟨verdict, hverdict⟩)⟩
  · cases htaken

end Heeds

/-! ## Every run -/

/-- **When a copy of a message is passed over.**  In every run of a transport,

* a message that is replayed in the replay phase is offered, whatever was said to copies of it;
* a message that the worker takes out of the queue is passed over if the listener has answered a
  copy of it, be it that it has accepted or refused it, since the worker goes by what was offered,
  and is offered otherwise;
* so a message of which no copy was accepted is passed over just if copies of it were answered. -/
theorem skip_iff_answered {settings : Settings} {origin : Origin} {outside : Outside}
    {deals : List (Move × Verdict)} {s : Session}
    (hrun : (start settings origin outside).run (deals.map Prod.fst) = some s) :
    let d := (start settings origin outside).docket {} deals
    (∀ m message s', s.replayedBy? (.receive m) = some message →
      s.step (.receive m) = some s' → s'.offers = s.offers ++ [message]) ∧
    ∀ m, s.takenBy? .turn = some m →
      ((s.skips? = some m.id ∧ s.work.offers = s.offers ∧
          ∃ verdict, (m.id, verdict) ∈ d.answers) ∨
        (s.skips? = none ∧ s.work.offers = s.offers ++ [m] ∧
          ∀ verdict, (m.id, verdict) ∉ d.answers)) ∧
      (s.skips? = some m.id ∧ ¬ d.Accepted m.id ↔ d.OnlyRefused m.id) := by
  intro d
  have h : s.Heeds d := (heeds_start settings origin outside).run hrun
  refine ⟨fun m message s' hreplayed hstep ↦ ?_, fun m htaken ↦ ?_⟩
  · exact h.offers_of_replayedBy? hreplayed hstep
  · obtain ⟨hskip, hoffers, hanswered⟩ | ⟨hskip, hoffers, hunanswered⟩ :=
      h.turn_of_takenBy? htaken
    · exact ⟨Or.inl ⟨hskip, hoffers, hanswered⟩,
        fun hnot ↦ ⟨hanswered, hnot.2⟩, fun hrefused ↦ ⟨hskip, hrefused.2⟩⟩
    · refine ⟨Or.inr ⟨hskip, hoffers, hunanswered⟩, fun hnot ↦ ?_, fun hrefused ↦ ?_⟩
      · cases hskip.symm.trans hnot.1
      · obtain ⟨⟨verdict, hverdict⟩, -⟩ := hrefused
        exact absurd hverdict (hunanswered verdict)

/-- The listener refuses a message that is replayed, and then it comes in live. -/
def refusesReplayed : List (Move × Verdict) :=
  [(asks, .accepted),
    (.receive (fromService (Replayed.mk (.fresh 0) (event 1))), .refused .serialization),
    (.receive (event 1), .accepted), (.receive (event 2), .accepted),
    (.receive (fromService (ReplayPhaseEnded.mk (.fresh 0))), .accepted)]

/-- The listener refuses a message that is offered, and another copy of it is in the queue. -/
def refusesHeld : List (Move × Verdict) :=
  [(asks, .accepted), (.receive (event 1), .accepted), (.receive (event 1), .accepted),
    (.receive (fromService (ReplayPhaseEnded.mk (.fresh 0))), .accepted), (.turn, .accepted),
    (.judge (.refused .serialization), .accepted)]

/-- The live copy is passed over, for the replayed one was answered. -/
theorem skips?_refusesReplayed :
    ∃ s, (start { persistent := true } ⟨⟨"Abc.Self.0"⟩, ""⟩ {}).run
        (refusesReplayed.map Prod.fst) = some s ∧
      s.takenBy? .turn = some (event 1) ∧ s.skips? = some (.fresh 1) ∧
      s.work.offers = s.offers := by
  have hdone :
      let s := start { persistent := true } ⟨⟨"Abc.Self.0"⟩, ""⟩ {}
      (s.run (refusesReplayed.map Prod.fst)).map (fun s ↦ s.takenBy? .turn) =
          some (some (event 1)) ∧
        (.fresh 1, .refused .serialization) ∈ (s.docket {} refusesReplayed).answers := by
    decide +kernel
  obtain ⟨htaken, hanswer⟩ := hdone
  obtain ⟨s, hrun, htaken⟩ := Option.map_eq_some_iff.mp htaken
  obtain ⟨hskip, hoffers, -⟩ | ⟨-, -, hunanswered⟩ := ((skip_iff_answered hrun).2 _ htaken).1
  · exact ⟨s, hrun, htaken, hskip, hoffers⟩
  · exact absurd hanswer (hunanswered _)

/-- **A message can be passed over though every copy of it was refused**, be it that one was
replayed, or that the worker offered one. -/
theorem skips?_refusesReplayed_refusesHeld :
    let s := start { persistent := true } ⟨⟨"Abc.Self.0"⟩, ""⟩ {}
    ((s.run (refusesReplayed.map Prod.fst)).map fun s ↦
        (s.takenBy? .turn, s.skips?, s.offers.map Envelope.id)) =
      some (some (event 1), some (.fresh 1), [.fresh 1]) ∧
    (s.docket {} refusesReplayed).answers = [(.fresh 1, .refused .serialization)] ∧
    (s.docket {} refusesReplayed).others = [] ∧
    ((s.run (refusesHeld.map Prod.fst)).map fun s ↦
        (s.takenBy? .turn, s.skips?, s.offers.map Envelope.id)) =
      some (some (event 1), some (.fresh 1), [.fresh 1]) ∧
    (s.docket {} refusesHeld).answers = [(.fresh 1, .refused .serialization)] ∧
    (s.docket {} refusesHeld).others = [] := by
  decide +kernel

end Session

end ServiceBus.Durable
