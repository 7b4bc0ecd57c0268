import ServiceBus.Proofs.Durable.Precedence
import ServiceBus.Proofs.Durable.Restart

/-!
# A transport that is stopped, or started again

Whoever follows the directory does so in a task of its own.  When the transport is stopped this task
is ended, and when the transport is started again another one takes its place.  The task is ended
wherever it waits just then: for the next update, in line for the link, or for the carrier in the
middle of a flush.

Whoever is cut off in this way puts nothing back.  What waits in the outbox stays there, but a flush
has taken out all that waited.  What it has not sent yet is lost, the command among it at which it
waits for the carrier; by `Attendance.accounted_run` nothing else ever is.
-/

set_option autoImplicit false

namespace ServiceBus.Durable

open Directory (View)

/-- The commands that whoever follows the directory has in hand. -/
def Holder.leaving : Holder → List Envelope
  | flushing _ flush => flush.leaving
  | _ => []

theorem Errand.commands_of_follows {errand : Errand} (h : errand.follows = true) :
    errand.commands = [] := by
  cases errand with
  | give | stopping => cases h
  | hear | catchUp => rfl

namespace Holder

variable {holder : Holder}

theorem commands_of_follows (h : holder.follows = true) : holder.commands = holder.leaving := by
  cases holder with
  | nobody | giving => cases h
  | arrived errand => exact Errand.commands_of_follows h
  | flushing => rfl

theorem leaving_of_not_flushing (h : ∀ taken flush, holder ≠ .flushing taken flush) :
    holder.leaving = [] := by
  cases holder with
  | flushing taken flush => exact absurd rfl (h taken flush)
  | _ => rfl

theorem leaving_of_not_follows (h : holder.follows = false) : holder.leaving = [] := by
  refine leaving_of_not_flushing fun taken flush hholder ↦ ?_
  rw [hholder] at h
  cases h

end Holder

namespace Traffic

variable {x : Traffic}

/-! ## The line for the link -/

theorem idle_goOn (x : Traffic) (taken : List Envelope)
    (outcome : Outbox × Option Flush × Outside) (h : (x.goOn taken outcome).holder = .nobody) :
    (x.goOn taken outcome).line = [] := by
  obtain ⟨outbox, flush? | flush, outside⟩ := outcome
  · exact idle_release h
  · cases h

theorem idle_proceed (hidle : x.holder = .nobody → x.line = []) (v : View)
    (h : (x.proceed v).holder = .nobody) : (x.proceed v).line = [] := by
  have hdeliver (server? : Option Peer) (command : Envelope) (handled : Option Envelope) :
      (x.deliver server? command handled).holder = .nobody →
        (x.deliver server? command handled).line = [] := by
    rw [deliver]
    dsimp only
    rw [(aside_conclude _ handled).holder, (aside_conclude _ handled).line]
    exact idle_goOn x _ _
  revert h
  rw [proceed]
  split
  · exact hidle
  · split
    · exact fun h ↦ by cases h
    · exact hdeliver _ _ _
  · exact idle_goOn x _ _
  · exact idle_goOn x _ _
  · exact idle_goOn x _ _
  · exact hdeliver _ _ _
  · exact idle_goOn x _ _

/-- Nobody ever stands in line for a link that nobody has. -/
theorem idle_step (hidle : x.holder = .nobody → x.line = []) (occurrence : Occurrence)
    (h : (x.step occurrence).holder = .nobody) : (x.step occurrence).line = [] := by
  by_cases hproceed : ∃ v, occurrence = .proceed v
  · obtain ⟨v, rfl⟩ := hproceed
    exact idle_proceed hidle v h
  · obtain ⟨x', haside, hstep | ⟨errand, hstep⟩⟩ :=
      x.step_eq_or fun v hoccurrence ↦ hproceed ⟨v, hoccurrence⟩
    · rw [hstep, haside.holder] at h
      rw [hstep, haside.line]
      exact hidle h
    · rw [hstep] at h
      obtain harrived | ⟨hne, hsame⟩ := x'.holder_request errand
      · cases harrived.symm.trans h
      · exact absurd (hsame.symm.trans h) hne

/-! ## Whoever follows the directory is cut off -/

/-- Whoever follows the directory goes away, wherever he is: he does not stand in line any more, and
if he has the link he gives it back. -/
def cutOff (x : Traffic) : Traffic :=
  let x := { x with line := x.line.filter fun errand ↦ !errand.follows }
  if x.holder.follows then x.release else x

theorem cutOff_of_follows (h : x.holder.follows = true) :
    x.cutOff = { x with line := x.line.filter fun errand ↦ !errand.follows }.release := by
  rw [cutOff, if_pos h]

theorem cutOff_of_not_follows (h : x.holder.follows = false) :
    x.cutOff = { x with line := x.line.filter fun errand ↦ !errand.follows } := by
  rw [cutOff, if_neg (by simp [h])]

/-- Nothing but the holder and the line is any different. -/
theorem cutOff_eq (x : Traffic) :
    x.cutOff = { x with holder := x.cutOff.holder, line := x.cutOff.line } := by
  cases h : x.holder.follows with
  | false => rw [cutOff_of_not_follows h]
  | true =>
    rw [cutOff_of_follows h, release]
    split <;> rfl

@[simp]
theorem transport_cutOff (x : Traffic) : x.cutOff.transport = x.transport := by rw [cutOff_eq]

@[simp]
theorem given_cutOff (x : Traffic) : x.cutOff.given = x.given := by rw [cutOff_eq]

@[simp]
theorem accepted_cutOff (x : Traffic) : x.cutOff.accepted = x.accepted := by
  rw [cutOff_eq]
  rfl

/-- Those who follow the directory have no commands in line. -/
theorem flatMap_commands_filter (line : List Errand) :
    (line.filter fun errand ↦ !errand.follows).flatMap Errand.commands =
      line.flatMap Errand.commands := by
  induction line with
  | nil => rfl
  | cons errand line ih =>
    cases h : errand.follows with
    | false => simp [h, ih]
    | true => simp [h, ih, Errand.commands_of_follows h]

/-- **Who is cut off takes along what he was still to send**, and nothing else. -/
theorem leaves_cutOff (x : Traffic) : Leaves x.holder.leaving x.pending x.cutOff.pending := by
  rw [pending, pending, transport_cutOff]
  cases h : x.holder.follows with
  | false =>
    rw [cutOff_of_not_follows h, Holder.leaving_of_not_follows h, flatMap_commands_filter]
    exact .nothing _
  | true =>
    rw [cutOff_of_follows h, commands_release, flatMap_commands_filter,
      Holder.commands_of_follows h]
    exact ⟨_, _, rfl, rfl⟩

theorem idle_cutOff (hidle : x.holder = .nobody → x.line = [])
    (h : x.cutOff.holder = .nobody) : x.cutOff.line = [] := by
  cases hfollows : x.holder.follows with
  | false =>
    rw [cutOff_of_not_follows hfollows] at h ⊢
    simp [hidle h]
  | true =>
    rw [cutOff_of_follows hfollows] at h ⊢
    exact idle_release h

theorem followerBusy_release (x : Traffic) :
    x.release.followerBusy = x.line.any Errand.follows := by
  rw [release]
  cases x.line <;> simp [followerBusy, Holder.follows]

/-- Nobody follows the directory any more. -/
theorem followerBusy_cutOff (x : Traffic) : x.cutOff.followerBusy = false := by
  have hline : (x.line.filter fun errand ↦ !errand.follows).any Errand.follows = false := by
    simp
  cases h : x.holder.follows with
  | false =>
    rw [cutOff_of_not_follows h, followerBusy, h]
    exact hline
  | true =>
    rw [cutOff_of_follows h, followerBusy_release]
    exact hline

theorem not_flushing_of_followerBusy {taken : List Envelope} {flush : Flush}
    (h : x.followerBusy = false) : x.holder ≠ .flushing taken flush := by
  intro hholder
  rw [followerBusy, hholder] at h
  cases h

/-- Whoever goes on without following the directory leaves the line to those who stand in it. -/
theorem followerBusy_proceed (h : x.followerBusy = false) (v : View) :
    (x.proceed v).followerBusy = false := by
  obtain ⟨hholder, hline⟩ := Bool.or_eq_false_iff.mp h
  have hgoOn (outbox : Outbox) (outside : Outside) :
      (x.goOn [] (outbox, none, outside)).followerBusy = false := by
    rw [goOn, followerBusy_release]
    exact hline
  have hdeliver (server? : Option Peer) (command : Envelope) (handled : Option Envelope) :
      (x.deliver server? command handled).followerBusy = false := by
    have haside := aside_conclude (x.goOn [] ((x.transport.outbox.give server? command x.outside).1,
      none, (x.transport.outbox.give server? command x.outside).2)) handled
    rw [deliver, followerBusy, haside.holder, haside.line]
    exact hgoOn ..
  rw [proceed]
  split
  · exact h
  · split
    · exact hline
    · exact hdeliver _ _ _
  · exact hgoOn ..
  · next harrived => simp [harrived, Holder.follows, Errand.follows] at hholder
  · next harrived => simp [harrived, Holder.follows, Errand.follows] at hholder
  · exact hdeliver _ _ _
  · next hflushing => simp [hflushing, Holder.follows] at hholder

theorem followerBusy_request (h : x.followerBusy = false) {errand : Errand}
    (hother : errand.follows = false) : (x.request errand).followerBusy = false := by
  obtain ⟨hholder, hline⟩ := Bool.or_eq_false_iff.mp h
  rw [request]
  split
  · exact Bool.or_eq_false_iff.mpr ⟨hother, hline⟩
  · refine Bool.or_eq_false_iff.mpr ⟨hholder, ?_⟩
    simpa [hother] using hline

theorem follows_of_mem_errands (h : x.followerBusy = false) {errand : Errand}
    (hmem : errand ∈ x.errands) : errand.follows = false := by
  obtain ⟨hholder, hline⟩ := Bool.or_eq_false_iff.mp h
  rw [errands] at hmem
  split at hmem
  · next arrived harrived =>
    obtain rfl | hmem := List.mem_cons.mp hmem
    · simpa [harrived, Holder.follows] using hholder
    · exact Bool.eq_false_iff.mpr (List.any_eq_false.mp hline errand hmem)
  · exact Bool.eq_false_iff.mpr (List.any_eq_false.mp hline errand hmem)

theorem mem_errands_request (x : Traffic) (errand : Errand) :
    errand ∈ (x.request errand).errands := by
  rw [request]
  cases x.holder <;> simp [errands]

/-- Nobody comes to follow the directory unless an update is heard, or some were missed. -/
theorem followerBusy_step (h : x.followerBusy = false) {occurrence : Occurrence}
    (hother : occurrence.errand? = none) : (x.step occurrence).followerBusy = false := by
  by_cases hproceed : ∃ v, occurrence = .proceed v
  · obtain ⟨v, rfl⟩ := hproceed
    exact followerBusy_proceed h v
  · obtain ⟨x', haside, hstep | ⟨errand, hstep⟩⟩ :=
      x.step_eq_or fun v hoccurrence ↦ hproceed ⟨v, hoccurrence⟩
    · rw [hstep, followerBusy, haside.holder, haside.line]
      exact h
    · have hbusy : x'.followerBusy = false := by
        rw [followerBusy, haside.holder, haside.line]
        exact h
      rw [hstep]
      refine followerBusy_request hbusy (Bool.eq_false_iff.mpr fun hfollows ↦ ?_)
      -- whoever follows the directory has been there before, or is told of something just now
      have hmem : errand ∈ (x.step occurrence).errands := by
        rw [hstep]
        exact x'.mem_errands_request errand
      obtain hbefore | hnow := x.errands_step occurrence hfollows hmem
      · cases (follows_of_mem_errands h hbefore).symm.trans hfollows
      · cases hother.symm.trans hnow

/-! ## The account, if some commands are lost -/

/-- All commands are accounted for, those that are lost among them. -/
structure Accounted (lost : List Envelope) (x : Traffic) : Prop where
  /-- What was given was taken by the carrier, or is on its way, or is lost. -/
  balance : x.given.Perm (x.accepted ++ x.pending ++ lost)
  /-- What is on its way is in the order in which it was given. -/
  order : x.pending.Sublist x.given
  /-- Nobody stands in line for a link that nobody has. -/
  idle : x.holder = .nobody → x.line = []
  /-- A flush that is going on has sent what it was begun with up to what is leaving. -/
  intact : x.Intact

variable {lost : List Envelope}

theorem accounted_start (settings : Settings) (origin : Origin) (outside : Outside) :
    (start settings origin outside).Accounted [] :=
  ⟨.refl _, .refl _, fun _ ↦ rfl, fun _ _ hholder ↦ by cases hholder⟩

/-- Nothing is lost by what goes on at the link. -/
theorem Accounted.step (h : x.Accounted lost) (occurrence : Occurrence) :
    (x.step occurrence).Accounted lost := by
  obtain ⟨new, after, hgiven, haccepted, hbefore, hafter⟩ := x.passes_step h.idle occurrence
  have hleaves : Leaves (x.sent occurrence) (x.pending ++ new) (x.step occurrence).pending :=
    ⟨_, after, hbefore, hafter⟩
  refine ⟨?_, ?_, idle_step h.idle occurrence, h.intact.step occurrence⟩
  · have hbalance := h.balance
    have hperm := hleaves.perm
    rw [hgiven, haccepted]
    rw [List.perm_iff_count] at hbalance hperm ⊢
    intro command
    have hbalance := hbalance command
    have hperm := hperm command
    simp only [List.count_append] at hbalance hperm ⊢
    omega
  · rw [hgiven]
    exact hleaves.sublist.trans (h.order.append (List.Sublist.refl new))

/-- What was leaving is lost if whoever follows the directory is cut off. -/
theorem Accounted.cutOff (h : x.Accounted lost) :
    x.cutOff.Accounted (lost ++ x.holder.leaving) := by
  have hleaves := x.leaves_cutOff
  refine ⟨?_, ?_, idle_cutOff h.idle, fun _ _ hholder ↦ ?_⟩
  · have hbalance := h.balance
    have hperm := hleaves.perm
    rw [given_cutOff, accepted_cutOff]
    rw [List.perm_iff_count] at hbalance hperm ⊢
    intro command
    have hbalance := hbalance command
    have hperm := hperm command
    simp only [List.count_append] at hbalance hperm ⊢
    omega
  · rw [given_cutOff]
    exact hleaves.sublist.trans h.order
  · exact absurd hholder (not_flushing_of_followerBusy x.followerBusy_cutOff)

end Traffic

namespace Liaison

variable {x : Liaison} {incident : Incident}

theorem place_eq_none_of_step (h : (x.step incident).place = none) : x.place = none := by
  cases incident with
  | follow => exact (Option.or_eq_none_iff.mp h).1
  | read => exact (Option.or_eq_none_iff.mp h).2
  | _ => exact h

theorem errand?_eq_none (hplace : x.place = none) {occurrence : Occurrence}
    (h : x.occurrence? incident = some occurrence) : occurrence.errand? = none := by
  cases incident with
  | read => simp [occurrence?, reading?, hplace] at h
  | act | follow => cases h
  | _ =>
    obtain rfl := Option.some.inj h
    rfl

end Liaison

/-! ## Stops and starts -/

/-- What happens next to a transport that may be stopped, and started, at any time. -/
inductive Episode
  /-- Something happens.  If that is `Incident.follow` the transport is started, perhaps once
  more. -/
  | incident (incident : Incident)
  /-- The transport is stopped. -/
  | stop

/-- The transport is stopped or started. -/
inductive Episode.Ends : Episode → Prop
  | stop : Ends .stop
  | start : Ends (.incident .follow)

/-- A client, and a transport that follows it from time to time. -/
structure Attendance where
  /-- The client and the transport. -/
  liaison : Liaison
  /-- The commands that were lost, oldest first. -/
  lost : List Envelope := []

namespace Attendance

/-- The transport was just made. -/
def start (settings : Settings) (clock : Directory.Clock) (roster : Roster) (origin : Origin)
    (outside : Outside) : Attendance where
  liaison := .start settings clock roster origin outside

/-- The transport, and what goes on around its link. -/
abbrev traffic (x : Attendance) : Traffic := x.liaison.traffic

/-- The task that follows the directory is ended, if there is one. -/
def endTask (x : Attendance) : Attendance :=
  match x.liaison.place with
  | none => x
  | some _ =>
    { liaison := { x.liaison with place := none, traffic := x.traffic.cutOff }
      lost := x.lost ++ x.traffic.holder.leaving }

/-- The transport follows the directory from now on, with a new task. -/
def follow (x : Attendance) : Attendance :=
  let x := x.endTask
  { x with liaison := { x.liaison with place := some x.liaison.feed.sent.size } }

/-- The transport does not follow the directory any more, and its reception stops. -/
def stop (x : Attendance) : Attendance :=
  let x := x.endTask
  let transport := { x.traffic.transport with reception := x.traffic.transport.reception.stop.1 }
  { x with liaison := { x.liaison with traffic := { x.traffic with transport } } }

/-- What is so after an episode. -/
def step (x : Attendance) : Episode → Attendance
  | .incident .follow => x.follow
  | .incident incident => { x with liaison := x.liaison.step incident }
  | .stop => x.stop

/-- What is so after several episodes. -/
def run (x : Attendance) (episodes : List Episode) : Attendance := episodes.foldl step x

variable {x : Attendance}

/-- A transport that was not started yet is started as `Liaison.step` tells. -/
theorem step_follow_of_not_started (h : x.liaison.place = none) :
    x.step (.incident .follow) = { x with liaison := x.liaison.step .follow } := by
  rw [step, follow, endTask, h]
  dsimp only
  rw [Liaison.step, h]
  rfl

/-- All commands are accounted for, and nobody follows the directory unless the transport was
started. -/
structure Sound (x : Attendance) : Prop where
  accounted : x.traffic.Accounted x.lost
  followed : x.liaison.place = none → x.traffic.followerBusy = false

theorem sound_start (settings : Settings) (clock : Directory.Clock) (roster : Roster)
    (origin : Origin) (outside : Outside) : (start settings clock roster origin outside).Sound :=
  ⟨Traffic.accounted_start settings origin outside, fun _ ↦ rfl⟩

/-- **The task is ended.**  What was leaving is lost. -/
theorem Sound.endTask (h : x.Sound) :
    x.endTask.Sound ∧ x.endTask.traffic.followerBusy = false ∧
      x.endTask.traffic.transport = x.traffic.transport ∧
      x.endTask.traffic.accepted = x.traffic.accepted ∧
      x.endTask.lost = x.lost ++ x.traffic.holder.leaving := by
  rw [Attendance.endTask]
  split
  · next hplace =>
    have hbusy := h.followed hplace
    have hleaving := Holder.leaving_of_not_follows (Bool.or_eq_false_iff.mp hbusy).1
    exact ⟨h, hbusy, rfl, rfl, by rw [hleaving, List.append_nil]⟩
  · have hbusy := x.traffic.followerBusy_cutOff
    exact ⟨⟨h.accounted.cutOff, fun _ ↦ hbusy⟩, hbusy, x.traffic.transport_cutOff,
      x.traffic.accepted_cutOff, rfl⟩

/-- **The transport is stopped or started.**  Whatever waits goes on waiting; what was leaving is
lost. -/
theorem Sound.ends (h : x.Sound) {e : Episode} (hends : e.Ends) :
    (x.step e).Sound ∧ (x.step e).traffic.followerBusy = false ∧
      (x.step e).traffic.transport.outbox = x.traffic.transport.outbox ∧
      (x.step e).traffic.accepted = x.traffic.accepted ∧
      (x.step e).lost = x.lost ++ x.traffic.holder.leaving := by
  obtain ⟨⟨haccounted, hfollowed⟩, hbusy, htransport, haccepted, hlost⟩ := h.endTask
  have houtbox := congrArg Transport.outbox htransport
  cases hends with
  | stop =>
    -- the reception stops, too, but that has nothing to do with the link
    have haccounted' : x.stop.traffic.Accounted x.stop.lost :=
      ⟨haccounted.balance, haccounted.order, haccounted.idle, haccounted.intact⟩
    exact ⟨⟨haccounted', hfollowed⟩, hbusy, houtbox, haccepted, hlost⟩
  | start => exact ⟨⟨haccounted, fun hplace ↦ by cases hplace⟩, hbusy, houtbox, haccepted, hlost⟩

/-- Nothing is lost as long as the task may go on. -/
theorem Sound.incident (h : x.Sound) (incident : Incident) :
    ({ x with liaison := x.liaison.step incident } : Attendance).Sound := by
  have htraffic := x.liaison.traffic_step incident
  cases hoccurrence : x.liaison.occurrence? incident with
  | none =>
    rw [hoccurrence] at htraffic
    refine ⟨?_, fun hplace ↦ ?_⟩
    · rw [traffic, htraffic]
      exact h.accounted
    · rw [traffic, htraffic]
      exact h.followed (Liaison.place_eq_none_of_step hplace)
  | some occurrence =>
    rw [hoccurrence] at htraffic
    refine ⟨?_, fun hplace ↦ ?_⟩
    · rw [traffic, htraffic]
      exact h.accounted.step occurrence
    · have hbefore := Liaison.place_eq_none_of_step hplace
      have hother := Liaison.errand?_eq_none hbefore hoccurrence
      rw [traffic, htraffic]
      exact Traffic.followerBusy_step (h.followed hbefore) hother

theorem ends_or_step_eq (x : Attendance) (e : Episode) :
    e.Ends ∨ ¬ e.Ends ∧
      ∃ incident, x.step e = { x with liaison := x.liaison.step incident } := by
  cases e with
  | stop => exact Or.inl .stop
  | incident incident =>
    cases incident with
    | follow => exact Or.inl .start
    | _ => exact Or.inr ⟨fun hends ↦ (by cases hends), _, rfl⟩

theorem Sound.step (h : x.Sound) (e : Episode) : (x.step e).Sound := by
  obtain hends | ⟨-, incident, hstep⟩ := x.ends_or_step_eq e
  · exact (h.ends hends).1
  · rw [hstep]
    exact h.incident incident

theorem Sound.run (h : x.Sound) (episodes : List Episode) : (x.run episodes).Sound := by
  induction episodes generalizing x with
  | nil => exact h
  | cons e episodes ih => exact ih (h.step e)

theorem Sound.exists_lost_step (h : x.Sound) (e : Episode) :
    ∃ lost, (x.step e).lost = x.lost ++ lost ∧
      (lost = [] ↔ (e.Ends → x.traffic.holder.leaving = [])) := by
  obtain hends | ⟨hnot, incident, hstep⟩ := x.ends_or_step_eq e
  · obtain ⟨-, -, -, -, hlost⟩ := h.ends hends
    exact ⟨_, hlost, fun hnone _ ↦ hnone, fun hnone ↦ hnone hends⟩
  · refine ⟨[], ?_, fun _ hends ↦ absurd hends hnot, fun _ ↦ rfl⟩
    rw [hstep, List.append_nil]

/-- Commands are lost only where the transport is stopped or started in the middle of a flush. -/
theorem Sound.exists_lost_run (h : x.Sound) (episodes : List Episode) :
    ∃ lost, (x.run episodes).lost = x.lost ++ lost ∧
      (lost = [] ↔ ∀ before e after, episodes = before ++ e :: after → e.Ends →
        (x.run before).traffic.holder.leaving = []) := by
  induction episodes generalizing x with
  | nil => exact ⟨[], (List.append_nil _).symm, by simp⟩
  | cons e episodes ih =>
    obtain ⟨first, hfirst, hfirst_iff⟩ := h.exists_lost_step e
    obtain ⟨rest, hrest, hrest_iff⟩ := ih (h.step e)
    refine ⟨first ++ rest, ?_, ?_⟩
    · rw [← List.append_assoc, ← hfirst]
      exact hrest
    · rw [List.append_eq_nil_iff, hfirst_iff, hrest_iff]
      constructor
      · rintro ⟨hnow, hlater⟩ before e' after heq hends
        cases before with
        | nil =>
          obtain ⟨rfl, rfl⟩ := List.cons.inj heq
          exact hnow hends
        | cons _ before =>
          obtain ⟨rfl, rfl⟩ := List.cons.inj heq
          exact hlater before e' after rfl hends
      · intro hall
        refine ⟨hall [] e episodes rfl, fun before e' after heq ↦ ?_⟩
        exact hall (e :: before) e' after (congrArg (e :: ·) heq)

/-- **What becomes of the commands** if the transport is stopped, and started again, at any time.

* Each command that was given was taken by the carrier, or is on its way, or is lost; those that are
  on their way are in the order in which they were given.
* None is lost exactly if the transport is never stopped, nor started once more, while a flush still
  has something to send.
* When the transport is stopped or started, whatever waits goes on waiting, the carrier is given
  nothing, and nobody flushes any more.
* If no flush is going on then, nothing is lost.  Otherwise nothing waits, and what is lost is just
  what the flush has taken out and not sent yet. -/
theorem accounted_run (settings : Settings) (clock : Directory.Clock) (roster : Roster)
    (origin : Origin) (outside : Outside) (episodes : List Episode) :
    let first := start settings clock roster origin outside
    let x := first.run episodes
    x.traffic.given.Perm (x.traffic.accepted ++ x.traffic.pending ++ x.lost) ∧
    x.traffic.pending.Sublist x.traffic.given ∧
    (x.lost = [] ↔ ∀ before e after, episodes = before ++ e :: after → e.Ends →
      (first.run before).traffic.holder.leaving = []) ∧
    ∀ e : Episode, e.Ends →
      (x.step e).traffic.transport.outbox = x.traffic.transport.outbox ∧
      (x.step e).traffic.accepted = x.traffic.accepted ∧
      (∀ taken flush, (x.step e).traffic.holder ≠ .flushing taken flush) ∧
      ((∀ taken flush, x.traffic.holder ≠ .flushing taken flush) → (x.step e).lost = x.lost) ∧
      ∀ taken flush, x.traffic.holder = .flushing taken flush →
        x.traffic.transport.outbox.waiting = [] ∧
        (x.step e).lost = x.lost ++ flush.leaving ∧
        ∃ sent, taken = sent ++ flush.leaving ∧ sent <:+ x.traffic.accepted := by
  intro first x
  have hfirst : first.Sound := sound_start settings clock roster origin outside
  have hsound : x.Sound := hfirst.run episodes
  obtain ⟨lost, hlost, hlost_iff⟩ := hfirst.exists_lost_run episodes
  have hlost : x.lost = lost := hlost
  refine ⟨hsound.accounted.balance, hsound.accounted.order, hlost ▸ hlost_iff, fun e hends ↦ ?_⟩
  obtain ⟨-, hbusy, houtbox, haccepted, hlost⟩ := hsound.ends hends
  refine ⟨houtbox, haccepted, fun _ _ ↦ Traffic.not_flushing_of_followerBusy hbusy, fun hnot ↦ ?_,
    fun taken flush hholder ↦ ?_⟩
  · rw [hlost, Holder.leaving_of_not_flushing hnot, List.append_nil]
  · obtain ⟨hwaiting, hsent⟩ := hsound.accounted.intact taken flush hholder
    rw [hholder] at hlost
    exact ⟨hwaiting, hlost, hsent⟩

/-- A transport that was just made, and knows nobody. -/
def alone : Attendance :=
  start { persistent := true } Liaison.noon {} ⟨⟨"Abc.Self.0"⟩, "tcp://Abc.Self.0:1"⟩ {}

/-- Two messages are handled while the service is not known, and then the transport hears that the
service starts. -/
def hearsStart : List Episode :=
  (.follow :: Liaison.letterHandled ++ Liaison.letterHandled ++ [Liaison.serviceStarts, .read]).map
    .incident

/-- Both commands are flushed, and nothing is lost when the transport is stopped after that. -/
theorem accounted_stopsAfterFlush :
    let x := alone.run (hearsStart ++ List.replicate 4 (.incident .proceed))
    (x.step .stop).lost = x.lost ∧ x.traffic.accepted.length = 2 := by
  intro x
  have hidle : x.traffic.followerBusy = false := by decide +kernel
  obtain ⟨-, -, -, hends⟩ := accounted_run { persistent := true } Liaison.noon {}
    ⟨⟨"Abc.Self.0"⟩, "tcp://Abc.Self.0:1"⟩ {} (hearsStart ++ List.replicate 4 (.incident .proceed))
  obtain ⟨-, -, -, hnone, -⟩ := hends .stop .stop
  exact ⟨hnone fun _ _ ↦ Traffic.not_flushing_of_followerBusy hidle, by decide +kernel⟩

/-- A command waits; after some time the carrier has not taken it, and when then the transport is
stopped or started it is gone. -/
def Drops (x : Attendance) (meanwhile : List Episode) (e : Episode) : Prop :=
  ∃ command ∈ x.traffic.transport.outbox.waiting,
    command ∉ (x.run meanwhile).traffic.accepted ∧
      command ∉ ((x.run meanwhile).step e).traffic.pending

instance (x : Attendance) (meanwhile : List Episode) (e : Episode) :
    Decidable (x.Drops meanwhile e) :=
  inferInstanceAs (Decidable (∃ command ∈ _, _ ∧ _))

/-- **Commands are lost in the middle of a flush**, at its beginning as well as after it has sent
one, if the transport is stopped then, and also if it is started again. -/
theorem drops_amidFlush :
    let x := alone.run hearsStart
    let begins := [Episode.incident .proceed]
    let sendsOne := [Episode.incident .proceed, .incident .proceed]
    x.Drops begins .stop ∧ x.Drops begins (.incident .follow) ∧
      x.Drops sendsOne .stop ∧ x.Drops sendsOne (.incident .follow) := by
  decide +kernel

end Attendance

end ServiceBus.Durable
