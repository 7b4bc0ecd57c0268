import ServiceBus.Proofs.Durable.Resync

/-!
# Until the service starts again

When the persistence service is about to stop, or is heard to be gone, the link is marked as down,
and commands wait from then on.  One would expect this to last until the directory publishes that
the service starts again.

`Liaison.exists_raise_of_handed` says what it takes instead.  Either the transport hears that the
service starts; but it reads the feed at its own pace, so that this may have been published long
before.  Or it has missed updates, whatever peers they were about, and the directory names a server
of the service, be it one that is about to stop.
-/

set_option autoImplicit false

namespace ServiceBus.Durable

open Directory (View Update Feed Reading)

/-- The update tells that the persistence service starts. -/
def StartsService (u : Update) : Prop := u.peer.isPersistence = true ∧ u.action = .started

instance (u : Update) : Decidable (StartsService u) :=
  inferInstanceAs (Decidable (_ ∧ _))

namespace Outbox

variable {b : Outbox}

/-- A command that has no server waits. -/
theorem give_none (b : Outbox) (command : Envelope) (o : Outside) :
    ∃ o', o'.carrier = o.carrier ∧
      b.give none command o = ({ b with waiting := b.waiting ++ [command] }, o') := by
  have htarget : b.target? none = none := by simp [target?]
  refine ⟨o.note (.persistenceAwaited command.id command.type (b.waiting.length + 1)), rfl, ?_⟩
  rw [give, htarget]

theorem down_beginFlush (b : Outbox) (server? : Option Peer) (o : Outside) :
    (b.beginFlush server? o).1.down = b.down := by
  unfold beginFlush
  split
  · rfl
  · cases server? <;> rfl

theorem down_stepFlush (b : Outbox) (f : Flush) (o : Outside) :
    (b.stepFlush f o).1.down = b.down := by
  unfold stepFlush
  split
  · rfl
  · split <;> rfl

/-- No update but one that tells that the service starts changes an outbox marked as down. -/
theorem beginHear_of_not_starts (hdown : b.down = true) {u : Update} (h : ¬ StartsService u)
    (server? : Option Peer) (o : Outside) :
    ∃ o', o'.carrier = o.carrier ∧ b.beginHear server? u o = (b, none, o') := by
  have hsame : { b with down := true } = b := by rw [← hdown]
  rw [beginHear]
  split
  · next hpersistence =>
    cases haction : u.action with
    | decommissioned => exact ⟨o.note (.persistenceDown u.peer), rfl, by rw [hsame]⟩
    | started => exact absurd ⟨hpersistence, haction⟩ h
    | stopped => exact ⟨o, rfl, rfl⟩
    | updated => exact ⟨o, rfl, rfl⟩
  · exact ⟨o, rfl, rfl⟩

theorem beginCatchUp_none (b : Outbox) (o : Outside) : b.beginCatchUp none o = (b, none, o) := by
  simp [beginCatchUp]

/-- What begins to flush is not marked as down. -/
theorem eq_none_of_beginHear {server? : Option Peer} {u : Update} {o : Outside}
    (h : (b.beginHear server? u o).1.down = true) : (b.beginHear server? u o).2.1 = none := by
  rw [beginHear] at h ⊢
  split
  · next hpersistence =>
    rw [if_pos hpersistence] at h
    cases haction : u.action with
    | started =>
      rw [haction] at h
      cases (down_beginFlush ..).symm.trans h
    | _ => rfl
  · rfl

theorem eq_none_of_beginCatchUp {server? : Option Peer} {o : Outside}
    (h : (b.beginCatchUp server? o).1.down = true) : (b.beginCatchUp server? o).2.1 = none := by
  rw [beginCatchUp] at h ⊢
  split
  · next hfound =>
    rw [if_pos hfound] at h
    cases (down_beginFlush ..).symm.trans h
  · rfl

end Outbox

/-- The errand on which whoever follows the directory comes for the link. -/
def Occurrence.errand? : Occurrence → Option Errand
  | .hear u => some (.hear u)
  | .missed => some .catchUp
  | _ => none

namespace Traffic

variable {x x' : Traffic}

/-! ## A link that is marked as down -/

/-- The link is marked as down, and its holder sends nothing. -/
structure Halted (x : Traffic) : Prop where
  /-- The link is marked as down. -/
  down : x.transport.outbox.down = true
  /-- The holder sends nothing. -/
  server : x.holder.server? = none

/-- The holder of the link is about to mark it as up. -/
inductive Raises (x : Traffic) (v : View) : Prop
  /-- He has heard that the service starts. -/
  | hears {u : Update} (holder : x.holder = .arrived (.hear u)) (starts : StartsService u)
  /-- He makes up for updates that were missed, and the directory names a server. -/
  | catchesUp (holder : x.holder = .arrived .catchUp) (named : v.persistenceServer?.isSome)

theorem server?_goOn (x : Traffic) (taken : List Envelope)
    (outcome : Outbox × Option Flush × Outside) :
    (x.goOn taken outcome).holder.server? = outcome.2.1.map Flush.server := by
  obtain ⟨outbox, flush? | flush, outside⟩ := outcome
  · exact server?_release _
  · rfl

theorem Halted.aside (h : x.Halted) (haside : x.Aside x') : x'.Halted :=
  ⟨haside.transport ▸ h.down, haside.holder ▸ h.server⟩

/-- Whoever gives the link back has given nothing to the carrier. -/
theorem halted_goOn (x : Traffic) {outbox : Outbox} {outside : Outside} (hdown : outbox.down = true)
    (hcarrier : outside.carrier = x.outside.carrier) (taken : List Envelope) :
    (x.goOn taken (outbox, none, outside)).Halted ∧
      (x.goOn taken (outbox, none, outside)).handed = x.handed := by
  refine ⟨⟨?_, server?_goOn x taken _⟩, ?_⟩
  · rw [outbox_goOn]
    exact hdown
  · have hparcels : outside.carrier.parcels = x.outside.carrier.parcels ++ [] := by simp [hcarrier]
    exact (handed_goOn hparcels taken).trans (List.append_nil _)

/-- Whoever gives a command while the link is marked as down lets it wait. -/
theorem halted_deliver (hdown : x.transport.outbox.down = true) (command : Envelope)
    (handled : Option Envelope) :
    (x.deliver none command handled).Halted ∧
      (x.deliver none command handled).handed = x.handed := by
  obtain ⟨o, hcarrier, hgive⟩ := x.transport.outbox.give_none command x.outside
  rw [deliver, hgive]
  have hwaits : ({ x.transport.outbox with
      waiting := x.transport.outbox.waiting ++ [command] } : Outbox).down = true := hdown
  obtain ⟨hhalted, hhanded⟩ := x.halted_goOn hwaits hcarrier []
  have haside := aside_conclude (x.goOn [] ({ x.transport.outbox with
    waiting := x.transport.outbox.waiting ++ [command] }, none, o)) handled
  exact ⟨hhalted.aside haside, haside.handed.trans hhanded⟩

theorem Halted.proceed (h : x.Halted) (v : View) :
    x.Raises v ∨ (x.proceed v).Halted ∧ (x.proceed v).handed = x.handed := by
  obtain ⟨hdown, hserver⟩ := h
  rw [Traffic.proceed]
  cases hholder : x.holder with
  | nobody => exact Or.inr ⟨⟨hdown, hserver⟩, rfl⟩
  | arrived errand =>
    cases errand with
    | give command handled =>
      have htarget : x.transport.outbox.target? v.persistenceServer? = none := by
        simp [Outbox.target?, hdown]
      dsimp only
      rw [htarget]
      exact Or.inr (halted_deliver hdown command handled)
    | stopping sender =>
      have hmarked : ({ x.transport.outbox with down := true } : Outbox).down = true := rfl
      obtain ⟨hhalted, hhanded⟩ := x.halted_goOn hmarked rfl []
      exact Or.inr ⟨hhalted.aside (aside_charge _ _), hhanded⟩
    | hear u =>
      by_cases hstarts : StartsService u
      · exact Or.inl (.hears hholder hstarts)
      · obtain ⟨o, hcarrier, hbegin⟩ :=
          Outbox.beginHear_of_not_starts hdown hstarts v.persistenceServer? x.outside
        dsimp only
        rw [hbegin]
        exact Or.inr (x.halted_goOn hdown hcarrier _)
    | catchUp =>
      cases hnamed : v.persistenceServer? with
      | some server => exact Or.inl (.catchesUp hholder (by simp [hnamed]))
      | none =>
        dsimp only
        rw [Outbox.beginCatchUp_none]
        exact Or.inr (x.halted_goOn hdown rfl _)
  | giving server command handled => simp [hholder, Holder.server?] at hserver
  | flushing taken flush => simp [hholder, Holder.server?] at hserver

theorem server?_request (h : x.holder.server? = none) (errand : Errand) :
    (x.request errand).holder.server? = none := by
  obtain harrived | ⟨-, hsame⟩ := x.holder_request errand
  · rw [harrived]
    rfl
  · rw [hsame, h]

/-- Until the link is marked as up, nothing is sent. -/
theorem Halted.step (h : x.Halted) (occurrence : Occurrence) :
    (∃ v, occurrence = .proceed v ∧ x.Raises v) ∨
      (x.step occurrence).Halted ∧ (x.step occurrence).handed = x.handed := by
  by_cases hproceed : ∃ v, occurrence = .proceed v
  · obtain ⟨v, rfl⟩ := hproceed
    exact (h.proceed v).imp_left fun hraises ↦ ⟨v, rfl, hraises⟩
  · obtain ⟨x', haside, hstep | ⟨errand, hstep⟩⟩ :=
      x.step_eq_or fun v hoccurrence ↦ hproceed ⟨v, hoccurrence⟩
    · rw [hstep]
      exact Or.inr ⟨h.aside haside, haside.handed⟩
    · obtain ⟨hdown, hserver⟩ := h.aside haside
      rw [hstep]
      refine Or.inr ⟨⟨?_, server?_request hserver errand⟩, ?_⟩
      · rw [transport_request, hdown]
      · rw [handed_request, haside.handed]

/-- Whoever sends does so at a link that is not marked as down. -/
def Heeds (x : Traffic) : Prop := x.transport.outbox.down = true → x.holder.server? = none

theorem heeds_goOn (x : Traffic) (taken : List Envelope)
    {outcome : Outbox × Option Flush × Outside}
    (h : outcome.1.down = true → outcome.2.1 = none) : (x.goOn taken outcome).Heeds := by
  intro hdown
  rw [outbox_goOn] at hdown
  rw [server?_goOn, h hdown]
  rfl

theorem Heeds.aside (h : x.Heeds) (haside : x.Aside x') : x'.Heeds := by
  rw [Heeds, haside.transport, haside.holder]
  exact h

theorem heeds_deliver (x : Traffic) (server? : Option Peer) (command : Envelope)
    (handled : Option Envelope) : (x.deliver server? command handled).Heeds := by
  rw [deliver]
  exact (x.heeds_goOn [] fun _ ↦ rfl).aside (aside_conclude _ handled)

theorem Heeds.proceed (h : x.Heeds) (v : View) : (x.proceed v).Heeds := by
  rw [Traffic.proceed]
  cases hholder : x.holder with
  | nobody => exact h
  | arrived errand =>
    cases errand with
    | give command handled =>
      dsimp only
      cases htarget : x.transport.outbox.target? v.persistenceServer? with
      | some server =>
        intro hdown
        have hnone : x.transport.outbox.target? v.persistenceServer? = none := by
          simp [Outbox.target?, show x.transport.outbox.down = true from hdown]
        cases hnone.symm.trans htarget
      | none => exact x.heeds_deliver none command handled
    | stopping sender => exact (x.heeds_goOn [] fun _ ↦ rfl).aside (aside_charge _ _)
    | hear u => exact x.heeds_goOn _ Outbox.eq_none_of_beginHear
    | catchUp => exact x.heeds_goOn _ Outbox.eq_none_of_beginCatchUp
  | giving server command handled => exact x.heeds_deliver (some server) command handled
  | flushing taken flush =>
    refine x.heeds_goOn taken fun hdown ↦ ?_
    have hserver := h ((Outbox.down_stepFlush ..).symm.trans hdown)
    simp [hholder, Holder.server?] at hserver

theorem Heeds.step (h : x.Heeds) (occurrence : Occurrence) : (x.step occurrence).Heeds := by
  by_cases hproceed : ∃ v, occurrence = .proceed v
  · obtain ⟨v, rfl⟩ := hproceed
    exact h.proceed v
  · obtain ⟨x', haside, hstep | ⟨errand, hstep⟩⟩ :=
      x.step_eq_or fun v hoccurrence ↦ hproceed ⟨v, hoccurrence⟩
    · rw [hstep]
      exact h.aside haside
    · rw [hstep]
      intro hdown
      rw [transport_request] at hdown
      exact server?_request (h.aside haside hdown) errand

theorem Heeds.run (h : x.Heeds) (occurrences : List Occurrence) : (x.run occurrences).Heeds := by
  induction occurrences generalizing x with
  | nil => exact h
  | cons occurrence occurrences ih => exact ih (h.step occurrence)

/-! ## Whoever follows the directory -/

/-- The errands that nobody has begun yet. -/
def errands (x : Traffic) : List Errand :=
  match x.holder with
  | .arrived errand => errand :: x.line
  | _ => x.line

theorem errands_request (x : Traffic) (errand : Errand) :
    ∀ e ∈ (x.request errand).errands, e ∈ x.errands ∨ e = errand := by
  rw [request]
  cases hholder : x.holder <;> simp +contextual [errands, hholder, or_assoc]

/-- Whoever does not follow the directory brings none of its errands. -/
theorem mem_errands_of_request {errand e : Errand} (h : e ∈ (x.request errand).errands)
    (hfollows : e.follows = true) (hother : errand.follows = false) : e ∈ x.errands := by
  obtain hbefore | rfl := errands_request x errand e h
  · exact hbefore
  · cases hother.symm.trans hfollows

theorem errands_release (x : Traffic) : x.release.errands = x.line := by
  rw [release]
  cases x.line <;> rfl

theorem errands_goOn (x : Traffic) (taken : List Envelope)
    (outcome : Outbox × Option Flush × Outside) : (x.goOn taken outcome).errands = x.line := by
  obtain ⟨outbox, flush? | flush, outside⟩ := outcome
  · exact errands_release _
  · rfl

theorem Aside.errands (h : x.Aside x') : x'.errands = x.errands := by
  rw [Traffic.errands, Traffic.errands, h.holder, h.line]

theorem line_subset_errands (x : Traffic) : x.line ⊆ x.errands := by
  rw [errands]
  cases x.holder <;> simp

/-- The holder of the link leaves the other errands as they are. -/
theorem errands_proceed (x : Traffic) (v : View) : (x.proceed v).errands ⊆ x.errands := by
  have hdeliver (server? : Option Peer) (command : Envelope) (handled : Option Envelope) :
      (x.deliver server? command handled).errands ⊆ x.errands := by
    rw [deliver, (aside_conclude _ handled).errands, errands_goOn]
    exact x.line_subset_errands
  have hgoOn (taken : List Envelope) (outcome : Outbox × Option Flush × Outside) :
      (x.goOn taken outcome).errands ⊆ x.errands := by
    rw [errands_goOn]
    exact x.line_subset_errands
  rw [proceed]
  split
  · exact List.Subset.refl _
  · split
    · exact x.line_subset_errands
    · exact hdeliver ..
  · rw [(aside_charge _ _).errands]
    exact hgoOn ..
  · exact hgoOn ..
  · exact hgoOn ..
  · exact hdeliver ..
  · exact hgoOn ..

/-- No job makes anybody follow the directory. -/
theorem errands_settle (x : Traffic) (job : Job) {e : Errand} (hfollows : e.follows = true)
    (h : e ∈ (x.settle job).errands) : e ∈ x.errands := by
  cases job with
  | plain message targets => exact h
  | others message others kept =>
    rw [settle] at h
    split at h
    · exact h
    · rwa [(aside_keep _ _ _).errands] at h
  | kept message targets =>
    rw [settle] at h
    dsimp only at h
    split at h
    · exact h
    · have hbefore := mem_errands_of_request h hfollows rfl
      exact hbefore
  | ack message => exact h
  | stoppingAck sender => exact h

/-- Whoever follows the directory comes for the link when he has read an update or missed some, and
else never. -/
theorem errands_step (x : Traffic) (occurrence : Occurrence) {e : Errand}
    (hfollows : e.follows = true) (h : e ∈ (x.step occurrence).errands) :
    e ∈ x.errands ∨ occurrence.errand? = some e := by
  cases occurrence with
  | send v message targets =>
    rw [step, beginSend] at h
    split at h
    · exact Or.inl h
    · dsimp only at h
      split at h
      · rw [(aside_keep _ _ _).errands] at h
        exact Or.inl h
      · exact Or.inl h
  | ack message =>
    rw [step, beginAck] at h
    split at h
    · have hbefore := mem_errands_of_request h hfollows rfl
      exact Or.inl hbefore
    · exact Or.inl h
  | stopping sender =>
    rw [step] at h
    have hbefore := mem_errands_of_request h hfollows rfl
    exact Or.inl hbefore
  | hear u =>
    rw [step] at h
    split at h
    · exact (errands_request x _ e h).imp_right fun he ↦ congrArg some he.symm
    · exact Or.inl h
  | missed => exact (errands_request x _ e h).imp_right fun he ↦ congrArg some he.symm
  | settle place =>
    rw [step] at h
    split at h
    · exact Or.inl (errands_settle { x with jobs := x.jobs.eraseIdx place } _ hfollows h)
    · exact Or.inl h
  | proceed v => exact Or.inl (x.errands_proceed v h)

theorem errands_run (x : Traffic) (occurrences : List Occurrence) {e : Errand}
    (hfollows : e.follows = true) (h : e ∈ (x.run occurrences).errands) :
    e ∈ x.errands ∨ ∃ occurrence ∈ occurrences, occurrence.errand? = some e := by
  induction occurrences generalizing x with
  | nil => exact Or.inl h
  | cons occurrence occurrences ih =>
    obtain hnext | hlater := ih (x.step occurrence) h
    · exact (x.errands_step occurrence hfollows hnext).imp_right fun hbrings ↦
        ⟨occurrence, List.mem_cons_self, hbrings⟩
    · obtain ⟨later, hmem, hbrings⟩ := hlater
      exact Or.inr ⟨later, List.mem_cons_of_mem _ hmem, hbrings⟩

end Traffic

/-- The update that is to be heard on an errand. -/
def Errand.heard? : Errand → Option Update
  | .hear u => some u
  | _ => none

namespace Liaison

/-! ## What the transport has not seen to yet -/

/-- The place of the update that the transport reads next. -/
def unread (x : Liaison) : Nat := x.place.getD x.feed.sent.size

/-- The updates that the transport has not seen to yet, as far as it need not miss them. -/
def unheard (x : Liaison) : List Update :=
  x.traffic.errands.filterMap Errand.heard? ++ x.feed.sent.toList.drop x.unread

/-- The updates that are published at several incidents. -/
def published (x : Liaison) (incidents : List Incident) : List Update :=
  (x.run incidents).feed.sent.toList.drop x.feed.sent.size

/-- The transport has seen to whatever was published, and has made up for whatever it missed. -/
structure UpToDate (x : Liaison) : Prop where
  idle : x.traffic.followerBusy = false
  read : x.feed.sent.size ≤ x.unread

variable {x : Liaison} {u : Update}

theorem sent_foldl_publish (f : Feed) (us : List Update) :
    (us.foldl Feed.publish f).sent.toList = f.sent.toList ++ us := by
  induction us generalizing f with
  | nil => simp
  | cons u us ih => simp [ih, Feed.publish]

theorem prefix_sent_step (x : Liaison) (incident : Incident) :
    x.feed.sent.toList <+: (x.step incident).feed.sent.toList := by
  cases incident with
  | act act =>
    rw [step, sent_foldl_publish]
    exact List.prefix_append _ _
  | _ => exact List.prefix_refl _

theorem prefix_sent_run (x : Liaison) (incidents : List Incident) :
    x.feed.sent.toList <+: (x.run incidents).feed.sent.toList := by
  induction incidents generalizing x with
  | nil => exact List.prefix_refl _
  | cons incident incidents ih => exact (x.prefix_sent_step incident).trans (ih (x.step incident))

theorem exists_place_of_reading? {found : Reading × Nat} (h : x.reading? = some found) :
    ∃ place, x.place = some place ∧ x.feed.read place = found := by
  rw [reading?] at h
  split at h
  · cases h
  · exact Option.map_eq_some_iff.mp h

/-- Whoever reads goes on in the feed, and never past its end. -/
theorem read_snd (f : Feed) {place : Nat} (h : place ≤ f.sent.size) :
    place ≤ (f.read place).2 ∧ (f.read place).2 ≤ f.sent.size := by
  rw [Feed.read]
  split
  · exact ⟨by dsimp only; omega, Nat.sub_le _ _⟩
  · cases hfound : f.sent[place]? with
    | none => exact ⟨Nat.le_refl _, h⟩
    | some u =>
      have hlt : place < f.sent.size := (Array.getElem?_eq_some_iff.mp hfound).1
      exact ⟨Nat.le_succ _, hlt⟩

/-- Whoever finds an update finds the one at his place. -/
theorem getElem?_of_read {f : Feed} {place next : Nat} (h : f.read place = (.update u, next)) :
    f.sent[place]? = some u := by
  rw [Feed.read] at h
  split at h
  · cases h
  · cases hfound : f.sent[place]? with
    | none =>
      rw [hfound] at h
      dsimp only at h
      split at h <;> cases h
    | some u' =>
      rw [hfound] at h
      cases h
      rfl

/-- The place in the feed changes when the transport is started, and when it reads. -/
theorem place_step (x : Liaison) (incident : Incident) :
    (x.step incident).place = x.place ∨
      (x.place = none ∧ (x.step incident).place = some x.feed.sent.size) ∨
      ∃ place, x.place = some place ∧ (x.step incident).place = some (x.feed.read place).2 := by
  cases incident with
  | follow =>
    cases hplace : x.place with
    | none => exact Or.inr (Or.inl ⟨rfl, by simp [step, hplace]⟩)
    | some place => exact Or.inl (by simp [step, hplace])
  | read =>
    cases hreading : x.reading? with
    | none => exact Or.inl (by simp [step, hreading])
    | some found =>
      obtain ⟨place, hplace, rfl⟩ := exists_place_of_reading? hreading
      exact Or.inr (Or.inr ⟨place, hplace, by simp [step, hreading]⟩)
  | _ => exact Or.inl rfl

theorem unread_step (h : x.unread ≤ x.feed.sent.size) (incident : Incident) :
    x.unread ≤ (x.step incident).unread ∧
      (x.step incident).unread ≤ (x.step incident).feed.sent.size := by
  have hgrows : x.feed.sent.size ≤ (x.step incident).feed.sent.size :=
    (x.prefix_sent_step incident).length_le
  rw [unread] at h ⊢
  rw [unread]
  obtain hsame | ⟨hnone, hsome⟩ | ⟨place, hplace, hnext⟩ := x.place_step incident
  · rw [hsame]
    cases hplace : x.place with
    | none => exact ⟨hgrows, Nat.le_refl _⟩
    | some place =>
      rw [hplace] at h
      exact ⟨Nat.le_refl _, Nat.le_trans h hgrows⟩
  · rw [hnone, hsome]
    exact ⟨Nat.le_refl _, hgrows⟩
  · rw [hplace] at h ⊢
    rw [hnext]
    obtain ⟨hlow, hhigh⟩ := read_snd x.feed h
    exact ⟨hlow, Nat.le_trans hhigh hgrows⟩

theorem unread_run (h : x.unread ≤ x.feed.sent.size) (incidents : List Incident) :
    x.unread ≤ (x.run incidents).unread ∧
      (x.run incidents).unread ≤ (x.run incidents).feed.sent.size := by
  induction incidents generalizing x with
  | nil => exact ⟨Nat.le_refl _, h⟩
  | cons incident incidents ih =>
    obtain ⟨hstep, hnext⟩ := unread_step h incident
    obtain ⟨hrun, hend⟩ := ih hnext
    exact ⟨Nat.le_trans hstep hrun, hend⟩

/-- What is read is what comes next in the feed. -/
theorem mem_drop_of_hear {incident : Incident} (h : x.occurrence? incident = some (.hear u)) :
    u ∈ x.feed.sent.toList.drop x.unread := by
  cases incident with
  | read =>
    rw [occurrence?] at h
    split at h
    · cases h
    · next u' next hreading =>
      obtain rfl : u' = u := by simpa using h
      obtain ⟨place, hplace, hread⟩ := exists_place_of_reading? hreading
      rw [unread, hplace, Option.getD_some, List.mem_iff_getElem?]
      exact ⟨0, by simpa [List.getElem?_drop] using getElem?_of_read hread⟩
    · cases h
  | _ => cases h

/-- Whatever is heard from a moment on was not read before. -/
theorem mem_drop_of_hear_mem {incidents : List Incident} (hunread : x.unread ≤ x.feed.sent.size)
    (h : .hear u ∈ x.occurrences incidents) :
    u ∈ (x.run incidents).feed.sent.toList.drop x.unread := by
  induction incidents generalizing x with
  | nil => cases h
  | cons incident incidents ih =>
    obtain ⟨hlow, hhigh⟩ := unread_step hunread incident
    rw [occurrences, List.mem_append] at h
    obtain hfirst | hlater := h
    · obtain ⟨new, hnew⟩ := x.prefix_sent_run (incident :: incidents)
      rw [← hnew, List.drop_append_of_le_length hunread]
      exact List.mem_append_left _ (mem_drop_of_hear (Option.mem_toList.mp hfirst))
    · exact (List.drop_sublist_drop_left _ hlow).subset (ih hhigh hlater)

/-- Whoever has something to hear has not heard it before, or it was published since. -/
theorem mem_unheard_of_hear {incidents : List Incident} (hunread : x.unread ≤ x.feed.sent.size)
    (h : .hear u ∈ (x.run incidents).traffic.errands) :
    u ∈ x.unheard ++ x.published incidents := by
  rw [traffic_run] at h
  rw [unheard, List.append_assoc, List.mem_append]
  obtain hbefore | ⟨occurrence, hmem, hbrings⟩ := Traffic.errands_run _ _ rfl h
  · exact Or.inl (List.mem_filterMap.mpr ⟨_, hbefore, rfl⟩)
  · obtain rfl : occurrence = .hear u := by cases occurrence <;> cases hbrings; rfl
    have hheard := mem_drop_of_hear_mem hunread hmem
    obtain ⟨new, hnew⟩ := x.prefix_sent_run incidents
    have hpublished : x.published incidents = new := by
      rw [published, ← hnew]
      exact List.drop_left' (Array.length_toList)
    rw [← hnew, List.drop_append_of_le_length (by simpa using hunread)] at hheard
    rw [hpublished]
    exact Or.inr hheard

/-- Whoever makes up for missed updates had to before, or was told since. -/
theorem missed_of_catchUp {incidents : List Incident}
    (h : .catchUp ∈ (x.run incidents).traffic.errands) :
    .catchUp ∈ x.traffic.errands ∨ .missed ∈ x.occurrences incidents := by
  rw [traffic_run] at h
  obtain hbefore | ⟨occurrence, hmem, hbrings⟩ := Traffic.errands_run _ _ rfl h
  · exact Or.inl hbefore
  · obtain rfl : occurrence = .missed := by cases occurrence <;> cases hbrings; rfl
    exact Or.inr hmem

/-! ## Every run -/

theorem occurrences_append (x : Liaison) (first later : List Incident) :
    x.occurrences (first ++ later) = x.occurrences first ++ (x.run first).occurrences later := by
  induction first generalizing x with
  | nil => rfl
  | cons incident first ih =>
    rw [List.cons_append, occurrences, ih, occurrences, List.append_assoc]
    rfl

theorem eq_proceed_of_occurrence? {incident : Incident} {v : View}
    (h : x.occurrence? incident = some (.proceed v)) : incident = .proceed ∧ x.view = v := by
  cases incident with
  | proceed => exact ⟨rfl, by simpa [occurrence?] using h⟩
  | read =>
    rw [occurrence?] at h
    split at h <;> cases h
  | _ => cases h

/-- Until the link is marked as up, nothing is sent. -/
theorem halted_step (h : x.traffic.Halted) (incident : Incident) :
    (incident = .proceed ∧ x.traffic.Raises x.view) ∨
      (x.step incident).traffic.Halted ∧ (x.step incident).traffic.handed = x.traffic.handed := by
  rw [traffic_step]
  cases hoccurrence : x.occurrence? incident with
  | none => exact Or.inr ⟨h, rfl⟩
  | some occurrence =>
    obtain ⟨v, rfl, hraises⟩ | hhalted := h.step occurrence
    · obtain ⟨rfl, rfl⟩ := eq_proceed_of_occurrence? hoccurrence
      exact Or.inl ⟨rfl, hraises⟩
    · exact Or.inr hhalted

/-- Whoever sends has marked the link as up before. -/
theorem exists_raises {later : List Incident} (h : x.traffic.Halted)
    (hhanded : (x.run later).traffic.handed ≠ x.traffic.handed) :
    ∃ first rest, later = first ++ .proceed :: rest ∧ (x.run first).traffic.Halted ∧
      (x.run first).traffic.handed = x.traffic.handed ∧
      (x.run first).traffic.Raises (x.run first).view := by
  induction later generalizing x with
  | nil => exact absurd rfl hhanded
  | cons incident later ih =>
    obtain ⟨rfl, hraises⟩ | ⟨hhalted, hsame⟩ := halted_step h incident
    · exact ⟨[], later, rfl, h, rfl, hraises⟩
    · obtain ⟨first, rest, rfl, hhalted', hsame', hraises⟩ :=
        ih hhalted fun hequal ↦ hhanded (hequal.trans hsame)
      exact ⟨incident :: first, rest, rfl, hhalted', hsame'.trans hsame, hraises⟩

/-- The transport that has seen to everything has nothing left to hear. -/
theorem UpToDate.unheard_eq_nil (h : x.UpToDate) :
    x.unheard = [] ∧ .catchUp ∉ x.traffic.errands := by
  have hnone (e : Errand) (he : e ∈ x.traffic.errands) : e.follows = false := by
    obtain ⟨hholder, hline⟩ := Bool.or_eq_false_iff.mp h.idle
    have hinLine (he : e ∈ x.traffic.line) : e.follows = false :=
      Bool.eq_false_iff.mpr (List.any_eq_false.mp hline e he)
    rw [Traffic.errands] at he
    split at he
    · next errand harrived =>
      obtain rfl | he := List.mem_cons.mp he
      · simpa [harrived, Holder.follows] using hholder
      · exact hinLine he
    · exact hinLine he
  refine ⟨?_, fun hmem ↦ by cases hnone _ hmem⟩
  have hheard : x.traffic.errands.filterMap Errand.heard? = [] := by
    refine List.filterMap_eq_nil_iff.mpr fun e he ↦ ?_
    cases e with
    | hear u => cases hnone _ he
    | _ => rfl
  rw [unheard, hheard, List.nil_append, List.drop_eq_nil_iff]
  exact h.read

/-- **What it takes to send again.**  From any moment on at which the link is marked as down nothing
is sent before somebody marks it as up: whoever hears that the service starts, or whoever makes up
for missed updates while the directory names a server of the service.  What is heard was published
since, or the transport had not seen to it at that moment; and likewise for what was missed.  So if
the transport had seen to everything by then, and is not told of missed updates since, the directory
has published since that the service starts. -/
theorem exists_raise_of_handed {settings : Settings} {clock : Directory.Clock} {roster : Roster}
    {origin : Origin} {outside : Outside} (before later : List Incident) :
    let x := (start settings clock roster origin outside).run before
    x.traffic.transport.outbox.down = true → (x.run later).traffic.handed ≠ x.traffic.handed →
      ∃ first rest, later = first ++ .proceed :: rest ∧
        (x.run first).traffic.transport.outbox.down = true ∧
        (x.run first).traffic.handed = x.traffic.handed ∧
        ((∃ u, (x.run first).traffic.holder = .arrived (.hear u) ∧ StartsService u ∧
            u ∈ x.unheard ++ x.published first) ∨
          (x.run first).traffic.holder = .arrived .catchUp ∧
            (x.run first).view.persistenceServer?.isSome ∧
            (.catchUp ∈ x.traffic.errands ∨ .missed ∈ x.occurrences first)) ∧
        (x.UpToDate → .missed ∉ x.occurrences first →
          ∃ u ∈ x.published first, StartsService u) := by
  intro x hdown hhanded
  have hheeds : x.traffic.Heeds := by
    have hstart : (Traffic.start settings origin outside).Heeds := fun _ ↦ rfl
    rw [traffic_run]
    exact hstart.run _
  have hunread : x.unread ≤ x.feed.sent.size := (unread_run (Nat.le_refl _) before).2
  obtain ⟨first, rest, hlater, hhalted, hsame, hraises⟩ :=
    exists_raises ⟨hdown, hheeds hdown⟩ hhanded
  refine ⟨first, rest, hlater, hhalted.down, hsame, ?_⟩
  cases hraises with
  | @hears u holder starts =>
    have hmem : u ∈ x.unheard ++ x.published first := by
      refine mem_unheard_of_hear hunread ?_
      rw [Traffic.errands, holder]
      exact List.mem_cons_self
    refine ⟨Or.inl ⟨u, holder, starts, hmem⟩, fun hupToDate _ ↦ ⟨u, ?_, starts⟩⟩
    simpa [hupToDate.unheard_eq_nil.1] using hmem
  | catchesUp holder named =>
    have hmissed : .catchUp ∈ x.traffic.errands ∨ .missed ∈ x.occurrences first := by
      refine missed_of_catchUp ?_
      rw [Traffic.errands, holder]
      exact List.mem_cons_self
    refine ⟨Or.inr ⟨holder, named, hmissed⟩, fun hupToDate hnot ↦ ?_⟩
    exact absurd hmissed (not_or.mpr ⟨hupToDate.unheard_eq_nil.2, hnot⟩)

/-- The persistence service starts. -/
def serviceStarts : Incident := .act (.event (.started ⟨service⟩))

/-- Some other peer starts. -/
def otherStarts : Incident :=
  .act (.event (.started ⟨{ peer := .live ⟨"Abc.P.0"⟩ "tcp://Abc.P.0:1", subscriptions := [] }⟩))

/-- The service is about to stop, and the link is marked as down. -/
def serviceStops : List Incident :=
  [.stopping ⟨.persistence "0", "tcp://Bus.PersistenceService.0:1"⟩, .proceed]

/-- A message is handled, and the command that tells so is given. -/
def letterHandled : List Incident := [.ack keptLetter, .proceed]

/-- The transport has heard that the service started, and the service is about to stop. -/
def stopped : Liaison :=
  (lagging []).run ([.follow, serviceStarts, .read, .proceed] ++ serviceStops)

/-- The service starts again, and the command that waits is sent. -/
def startsAgain : List Incident := letterHandled ++ [serviceStarts, .read, .proceed, .proceed]

/-- The directory publishes that the service starts before the command is sent. -/
theorem exists_start_startsAgain :
    stopped.traffic.transport.outbox.down = true ∧
      (stopped.run startsAgain).traffic.handed ≠ stopped.traffic.handed ∧
      ∃ first rest, startsAgain = first ++ .proceed :: rest ∧
        (stopped.run first).traffic.handed = stopped.traffic.handed ∧
        ∃ u ∈ stopped.published first, StartsService u := by
  have hdown : stopped.traffic.transport.outbox.down = true := by decide +kernel
  have hhanded : (stopped.run startsAgain).traffic.handed ≠ stopped.traffic.handed := by
    decide +kernel
  have hupToDate : stopped.UpToDate := ⟨by decide +kernel, by decide +kernel⟩
  have hnone : (stopped.occurrences startsAgain).any Occurrence.isMissed = false := by
    decide +kernel
  obtain ⟨first, rest, hlater, -, hsame, -, hstarts⟩ := exists_raise_of_handed _ _ hdown hhanded
  refine ⟨hdown, hhanded, first, rest, hlater, hsame, hstarts hupToDate fun hmem ↦ ?_⟩
  rw [hlater, occurrences_append] at hnone
  exact List.any_eq_false.mp hnone _ (List.mem_append_left _ hmem) rfl

/-- Commands are sent although the link is marked as down, and the directory has not published since
that the service starts. -/
def Revives (x : Liaison) (later : List Incident) : Prop :=
  x.traffic.transport.outbox.down = true ∧
    (x.run later).traffic.accepted ≠ x.traffic.accepted ∧
    ∀ u ∈ x.published later, ¬ StartsService u

/-- **A link that is marked as down may come to be used while the service stops.**  So it is if the
transport misses updates about other peers, and also if it has yet to hear that the service started
at first. -/
theorem revives_losesOthers_hearsLate :
    stopped.Revives (letterHandled ++ [otherStarts, otherStarts, .read, .proceed, .proceed]) ∧
      ((lagging []).run ([.follow, serviceStarts] ++ serviceStops)).Revives
        (letterHandled ++ [.read, .proceed, .proceed]) := by
  unfold Revives
  decide +kernel

end Liaison

end ServiceBus.Durable
