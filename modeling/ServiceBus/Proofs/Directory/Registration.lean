import ServiceBus.Proofs.Directory.Runs

/-!
# A registration is a sequential replay

While a registration is going on, servers are asked one after the other, and events come in at any
moment: before an answer, after it, and even while those that were held back are applied.  A
`Registration` is the client together with the `Stage` that the call has come to, and a `Moment` is
the next thing that happens.

At the end the events that were held back are applied in batches: a batch is taken out, it is
applied event by event, and this is done again until there is nothing to take.  `Client.release`
does it at one go, and `Registration.settled` is what it makes of a stage.  `settled_begin?` and
`settled_answered` say that the stages are those of the client's own steps, and `settled_step` that
to go on batch by batch comes to the same when no event comes in between.

`registry_of_run` is the result: however answers, silence and events follow on each other, the
registry that a registration leaves is that of `Registry.relive`, which forgets everybody, learns
what the one accepted answer told, and applies each event once, in the order in which they came.
-/

set_option autoImplicit false

namespace ServiceBus.Directory

/-- The registry of a registration that is done without haste: everybody is forgotten, the peer puts
itself in, the descriptors of the directory are taken in, and the events are applied. -/
def Registry.relive (r : Registry) (self : Descriptor PeerRef) (known : List (Descriptor Peer))
    (events : List Event) : Registry :=
  (((r.restart self).learnAll known).1.applyAll events).1

theorem Registry.applyAll_append (r : Registry) (es es' : List Event) :
    (r.applyAll (es ++ es')).1 = ((r.applyAll es).1.applyAll es').1 := by
  rw [← Deed.performAll_apply, List.map_append, Deed.performAll_append, Deed.performAll_apply,
    Deed.performAll_apply]

theorem Registry.relive_concat (r : Registry) (self : Descriptor PeerRef)
    (known : List (Descriptor Peer)) (events : List Event) (e : Event) :
    r.relive self known (events ++ [e]) = ((r.relive self known events).apply e).1 := by
  rw [relive, applyAll_append]
  rfl

theorem Client.handle_of_held {c : Client} {held : List Event} (h : c.held = some held)
    (e : Event) :
    c.handle e = ({ c with held := some (held ++ [e]) }, [.eventHeld e.peer e.type]) := by
  rw [handle, h]

theorem Client.handle_of_not_held {c : Client} (h : c.held = none) (e : Event) :
    c.handle e = ({ c with registry := (c.registry.apply e).1 }, (c.registry.apply e).2) := by
  rw [handle, h]

/-! ## Stages and moments -/

/-- How far a registration is. -/
inductive Stage
  /-- A server was asked. -/
  | asking (a : Attempt)
  /-- No server is asked any more, and the next batch of events is to be taken out. -/
  | settling (result : Except Failure Unit)
  /-- A batch of events is applied. -/
  | applying (result : Except Failure Unit) (batch : List Event)
  /-- The call has returned. -/
  | returned (result : Except Failure Unit)

/-- What happens next to a registration. -/
inductive Moment
  /-- An event comes in. -/
  | event (e : Event)
  /-- The server that was asked answers, or has not answered in time. -/
  | answer (answer : Answer) (now : Nat)
  /-- The client takes out what is held back. -/
  | take
  /-- The client applies the next event that it took out. -/
  | apply

namespace Moment

/-- The event that comes in. -/
def event? : Moment → Option Event
  | event e => some e
  | _ => none

/-- What the answer tells that takes the registration. -/
def taken? : Moment → Option (List (Descriptor Peer))
  | answer a _ => a.taken?
  | _ => none

/-- All events that come in, in their order. -/
def events (ms : List Moment) : List Event := ms.filterMap event?

/-- What the first answer tells that takes the registration. -/
def accepted? (ms : List Moment) : Option (List (Descriptor Peer)) := ms.findSome? taken?

@[simp]
theorem events_concat (ms : List Moment) (m : Moment) :
    events (ms ++ [m]) = events ms ++ m.event?.toList := by
  rw [events, List.filterMap_append]
  cases m <;> rfl

@[simp]
theorem accepted?_concat (ms : List Moment) (m : Moment) :
    accepted? (ms ++ [m]) = (accepted? ms).or m.taken? := by
  rw [accepted?, List.findSome?_append, List.findSome?_singleton]
  rfl

end Moment

/-- A registration that is going on. -/
structure Registration where
  /-- The client. -/
  client : Client
  /-- How far the call is. -/
  stage : Stage

namespace Registration

open Client (endRegistration release beginRegister_eq resume resumeRegister_of_taken
  resumeRegister_of_not_taken fallOver)

/-- The next server is asked; when there is none, the registration has failed. -/
def ask (c : Client) (command : Command) (selection : List Peer) : List Peer → Registration
  | server :: rest => ⟨c, .asking ⟨command, server, rest, selection⟩⟩
  | [] => ⟨c, .settling (.error (.registrationTimeout (Peer.addresses selection) c.timeoutMs))⟩

/-- A registration that sets out, if the clock gives it a timestamp. -/
def begin? (c : Client) (self : PeerRef) (ss : List Subscription) (now seed : Nat) :
    Option Registration :=
  if c.stamp.1 = none then none
  else some (ask (c.settingOut self ss now seed) (.register (c.ownDescriptor self ss))
    (c.servers.order now seed) (c.servers.order now seed))

/-- The registration after an answer of the server that was asked. -/
def answered (c : Client) (a : Attempt) (answer : Answer) (now : Nat) : Registration :=
  match answer.taken? with
  | some known =>
    ⟨{ c with
        registry := (c.registry.learnAll known).1
        servers := c.servers.clearFaulty a.server.id }, .settling (.ok ())⟩
  | none =>
    ask { c with servers := c.servers.markFaulty now a.server.id } a.command a.selection a.rest

/-- The standing of a client whose registration came to a result. -/
def standingAfter : Except Failure Unit → Standing
  | .ok _ => .registered
  | .error _ => .unregistered

/-- What is held back is taken out, and once it is nothing, the call returns. -/
def take (c : Client) (result : Except Failure Unit) : Registration :=
  match c.held.getD [] with
  | [] => ⟨{ c with held := none, standing := standingAfter result }, .returned result⟩
  | batch => ⟨{ c with held := some [] }, .applying result batch⟩

/-- The registration after a moment, if that moment can come now. -/
def step : Registration → Moment → Option Registration
  | ⟨c, stage⟩, .event e => some ⟨(c.handle e).1, stage⟩
  | ⟨c, .asking a⟩, .answer answer now => some (answered c a answer now)
  | ⟨c, .settling result⟩, .take => some (take c result)
  | ⟨c, .applying result []⟩, .apply => some ⟨c, .settling result⟩
  | ⟨c, .applying result (e :: batch)⟩, .apply =>
    some ⟨{ c with registry := (c.registry.apply e).1 }, .applying result batch⟩
  | _, _ => none

/-- The registration after several moments. -/
def run : Registration → List Moment → Option Registration
  | r, [] => some r
  | r, m :: ms => (r.step m).bind fun r ↦ r.run ms

/-- What a registration comes to, given the servers that were chosen and all that happens. -/
def outcome (c : Client) (selection : List Peer) (ms : List Moment) : Except Failure Unit :=
  match Moment.accepted? ms with
  | some _ => .ok ()
  | none => .error (.registrationTimeout (Peer.addresses selection) c.timeoutMs)

/-! ## The stages are those of the client -/

/-- What the client makes of it when nothing but answers comes in between: the call waits, or what
is left to do is done at one go. -/
def settled (r : Registration) : Client × Progress :=
  match r.stage with
  | .asking a => (r.client, .waiting a)
  | .settling result => ((r.client.endRegistration result).1, .finished result)
  | .applying result batch =>
    ((endRegistration { r.client with registry := (r.client.registry.applyAll batch).1 } result).1,
      .finished result)
  | .returned result => (r.client, .finished result)

theorem settled_ask (c : Client) (d : Descriptor PeerRef) (selection rest : List Peer) :
    (ask c (.register d) selection rest).settled =
      ((c.tryNext (.register d) selection rest).1,
        (c.tryNext (.register d) selection rest).2.2) := by
  cases rest <;> rfl

/-- A registration sets out as the call does. -/
theorem settled_begin? {c : Client} {self : PeerRef} {ss : List Subscription} {now seed : Nat}
    {r : Registration} (h : begin? c self ss now seed = some r) :
    r.settled =
      ((c.beginRegister self ss now seed).1, (c.beginRegister self ss now seed).2.2) := by
  rw [begin?] at h
  split at h
  · cases h
  · next hstamp =>
    obtain rfl := Option.some.inj h
    rw [settled_ask, beginRegister_eq hstamp]

/-- A registration goes on after an answer as the call does. -/
theorem settled_answered (c : Client) (a : Attempt) {d : Descriptor PeerRef}
    (ha : a.command = .register d) (answer : Answer) (now : Nat) :
    (answered c a answer now).settled =
      ((c.resume a answer now).1, (c.resume a answer now).2.2) := by
  rw [resume, ha]
  dsimp only
  cases htaken : answer.taken? with
  | some known =>
    rw [resumeRegister_of_taken htaken, answered, htaken]
    rfl
  | none =>
    obtain ⟨notice, hfall⟩ := resumeRegister_of_not_taken htaken c a d.peer.id now
    rw [hfall, answered, htaken, fallOver, ha]
    exact settled_ask _ d a.selection a.rest

/-- To take out what is held back and to apply it in batches is what is left to do. -/
theorem settled_step {r r' : Registration} {m : Moment} (hm : m = .take ∨ m = .apply)
    (h : r.step m = some r') : r'.settled = r.settled := by
  unfold step at h
  split at h
  · simp at hm
  · simp at hm
  · next c result =>
    obtain rfl := Option.some.inj h
    rw [take]
    split
    · next hheld =>
      cases result <;>
        simp [settled, endRegistration, release, hheld, Registry.applyAll, standingAfter]
    · next batch hbatch => simp [settled, endRegistration, release, Registry.applyAll]
  · next c result =>
    obtain rfl := Option.some.inj h
    rfl
  · next c result e batch =>
    obtain rfl := Option.some.inj h
    rfl
  · cases h

/-! ## Where a registration stands -/

open Moment (events accepted?)

/-- Where a registration stands after some moments, given the client before it, the descriptor that
it tells and the servers that were chosen.  Of the events that came in, some are applied, some were
taken out to be applied next, and the rest is held back. -/
inductive Stands (c : Client) (d : Descriptor PeerRef) (selection : List Peer) (ms : List Moment) :
    Registration → Prop
  | asking {c' : Client} {a : Attempt} (hcommand : a.command = .register d)
      (hselection : a.selection = selection) (htimeout : c'.timeoutMs = c.timeoutMs)
      (hnone : accepted? ms = none) (htake : .take ∉ ms) (hheld : c'.held = some (events ms))
      (hregistry : c'.registry = c.registry.relive d [] []) :
      Stands c d selection ms ⟨c', .asking a⟩
  | settling {c' : Client} (applied held : List Event) (hheld : c'.held = some held)
      (hevents : events ms = applied ++ held) (htake : .take ∉ ms → applied = [])
      (hregistry : c'.registry = c.registry.relive d ((accepted? ms).getD []) applied) :
      Stands c d selection ms ⟨c', .settling (outcome c selection ms)⟩
  | applying {c' : Client} (applied batch held : List Event) (hheld : c'.held = some held)
      (hevents : events ms = applied ++ (batch ++ held)) (htake : .take ∈ ms)
      (hregistry : c'.registry = c.registry.relive d ((accepted? ms).getD []) applied) :
      Stands c d selection ms ⟨c', .applying (outcome c selection ms) batch⟩
  | returned {c' : Client} (hheld : c'.held = none) (htake : .take ∈ ms)
      (hregistry : c'.registry = c.registry.relive d ((accepted? ms).getD []) (events ms)) :
      Stands c d selection ms ⟨c', .returned (outcome c selection ms)⟩

section Stands

variable {c : Client} {d : Descriptor PeerRef} {selection : List Peer} {ms : List Moment}

theorem outcome_concat (c : Client) (selection : List Peer) (ms : List Moment) {m : Moment}
    (h : m.taken? = none) : outcome c selection (ms ++ [m]) = outcome c selection ms := by
  rw [outcome, outcome, Moment.accepted?_concat, h, Option.or_none]

/-- A client that asks the next server stands as before; one that has nobody left has failed. -/
theorem stands_ask (c' : Client) (htimeout : c'.timeoutMs = c.timeoutMs)
    (hnone : accepted? ms = none) (htake : .take ∉ ms) (hheld : c'.held = some (events ms))
    (hregistry : c'.registry = c.registry.relive d [] []) (rest : List Peer) :
    Stands c d selection ms (ask c' (.register d) selection rest) := by
  cases rest with
  | cons server rest => exact .asking rfl rfl htimeout hnone htake hheld hregistry
  | nil =>
    have houtcome : outcome c selection ms =
        .error (.registrationTimeout (Peer.addresses selection) c'.timeoutMs) := by
      rw [outcome, hnone, htimeout]
    rw [ask, ← houtcome]
    exact .settling [] (events ms) hheld rfl (fun _ ↦ rfl) (by rw [hnone]; exact hregistry)

/-- An event is held back, or applied once nothing is held back any more. -/
theorem Stands.event {r : Registration} (h : Stands c d selection ms r) (e : Event) :
    Stands c d selection (ms ++ [.event e]) ⟨(r.client.handle e).1, r.stage⟩ := by
  have houtcome := outcome_concat c selection ms (m := .event e) rfl
  cases h with
  | asking hcommand hselection htimeout hnone htake hheld hregistry =>
    rw [Client.handle_of_held hheld]
    exact .asking hcommand hselection htimeout (by simp [hnone, Moment.taken?]) (by simp [htake])
      (by simp [Moment.event?]) hregistry
  | settling applied held hheld hevents htake hregistry =>
    rw [Client.handle_of_held hheld, ← houtcome]
    refine .settling applied (held ++ [e]) rfl (by simp [hevents, Moment.event?]) ?_ ?_
    · exact fun hnot ↦ htake (by simpa using hnot)
    · simpa [Moment.taken?] using hregistry
  | applying applied batch held hheld hevents htake hregistry =>
    rw [Client.handle_of_held hheld, ← houtcome]
    refine .applying applied batch (held ++ [e]) rfl (by simp [hevents, Moment.event?]) ?_ ?_
    · simp [htake]
    · simpa [Moment.taken?] using hregistry
  | returned hheld htake hregistry =>
    rw [Client.handle_of_not_held hheld, ← houtcome]
    refine .returned hheld (by simp [htake]) ?_
    simp [Moment.taken?, Moment.event?, Registry.relive_concat, hregistry]

/-- The first answer that takes the registration is the accepted one. -/
theorem Stands.answered {c' : Client} {a : Attempt}
    (h : Stands c d selection ms ⟨c', .asking a⟩) (answer : Answer) (now : Nat) :
    Stands c d selection (ms ++ [.answer answer now]) (answered c' a answer now) := by
  cases h with
  | asking hcommand hselection htimeout hnone htake hheld hregistry =>
    have hheld' : c'.held = some (events (ms ++ [.answer answer now])) := by
      simp [hheld, Moment.event?]
    have htake' : .take ∉ ms ++ [.answer answer now] := by simp [htake]
    have haccepted : accepted? (ms ++ [.answer answer now]) = answer.taken? := by
      simp [hnone, Moment.taken?]
    rw [Registration.answered]
    cases htaken : answer.taken? with
    | none =>
      rw [hcommand, hselection]
      exact stands_ask { c' with servers := c'.servers.markFaulty now a.server.id } htimeout
        (haccepted.trans htaken) htake' hheld' hregistry a.rest
    | some known =>
      have houtcome : outcome c selection (ms ++ [.answer answer now]) = .ok () := by
        rw [outcome, haccepted, htaken]
      rw [← houtcome]
      refine .settling [] _ hheld' rfl (fun _ ↦ rfl) ?_
      rw [haccepted, htaken]
      show (c'.registry.learnAll known).1 = ((c.registry.restart d).learnAll known).1
      rw [hregistry]
      rfl

/-- What is held back is taken out, or there is nothing to take out and all is done. -/
theorem Stands.take {c' : Client} {result : Except Failure Unit}
    (h : Stands c d selection ms ⟨c', .settling result⟩) :
    Stands c d selection (ms ++ [.take]) (take c' result) := by
  have houtcome := outcome_concat c selection ms (m := .take) rfl
  cases h with
  | settling applied held hheld hevents htake hregistry =>
    rw [Registration.take, hheld, Option.getD_some, ← houtcome]
    cases held with
    | nil =>
      refine .returned rfl (by simp) ?_
      simp [Moment.taken?, Moment.event?, hevents, hregistry]
    | cons e held =>
      refine .applying applied (e :: held) [] rfl (by simp [hevents, Moment.event?]) (by simp) ?_
      simpa [Moment.taken?] using hregistry

theorem Stands.apply {c' : Client} {result : Except Failure Unit} {e : Event} {batch : List Event}
    (h : Stands c d selection ms ⟨c', .applying result (e :: batch)⟩) :
    Stands c d selection (ms ++ [.apply])
      ⟨{ c' with registry := (c'.registry.apply e).1 }, .applying result batch⟩ := by
  have houtcome := outcome_concat c selection ms (m := .apply) rfl
  cases h with
  | applying applied _ held hheld hevents htake hregistry =>
    rw [← houtcome]
    refine .applying (applied ++ [e]) batch held hheld ?_ (by simp [htake]) ?_
    · simp [hevents, Moment.event?]
    · simp [Moment.taken?, Registry.relive_concat, hregistry]

/-- Once a batch is applied, the client looks for the next one. -/
theorem Stands.applyDone {c' : Client} {result : Except Failure Unit}
    (h : Stands c d selection ms ⟨c', .applying result []⟩) :
    Stands c d selection (ms ++ [.apply]) ⟨c', .settling result⟩ := by
  have houtcome := outcome_concat c selection ms (m := .apply) rfl
  cases h with
  | applying applied _ held hheld hevents htake hregistry =>
    rw [← houtcome]
    refine .settling applied held hheld ?_ ?_ ?_
    · simp [hevents, Moment.event?]
    · exact fun hnot ↦ absurd htake (by simpa using hnot)
    · simpa [Moment.taken?] using hregistry

/-- One moment keeps it. -/
theorem Stands.step {r r' : Registration} {m : Moment} (h : Stands c d selection ms r)
    (hstep : r.step m = some r') : Stands c d selection (ms ++ [m]) r' := by
  unfold Registration.step at hstep
  split at hstep
  · next c' stage e =>
    obtain rfl := Option.some.inj hstep
    exact h.event e
  · next c' a answer now =>
    obtain rfl := Option.some.inj hstep
    exact h.answered answer now
  · next c' result =>
    obtain rfl := Option.some.inj hstep
    exact h.take
  · next c' result =>
    obtain rfl := Option.some.inj hstep
    exact h.applyDone
  · next c' result e batch =>
    obtain rfl := Option.some.inj hstep
    exact h.apply
  · cases hstep

/-- Any number of moments keep it. -/
theorem Stands.run {r r' : Registration} {ms' : List Moment} (h : Stands c d selection ms r)
    (hrun : r.run ms' = some r') : Stands c d selection (ms ++ ms') r' := by
  induction ms' generalizing ms r with
  | nil =>
    obtain rfl := Option.some.inj hrun
    simpa using h
  | cons m ms' ih =>
    obtain ⟨r'', hstep, hrest⟩ := Option.bind_eq_some_iff.mp hrun
    have hall := ih (h.step hstep) hrest
    rwa [List.append_assoc, List.singleton_append] at hall

end Stands

theorem stands_begin {c : Client} {self : PeerRef} {ss : List Subscription} {now seed : Nat}
    {r : Registration} (h : begin? c self ss now seed = some r) :
    Stands c (c.ownDescriptor self ss) (c.servers.order now seed) [] r := by
  rw [begin?] at h
  split at h
  · cases h
  · obtain rfl := Option.some.inj h
    have htimeout : (c.settingOut self ss now seed).timeoutMs = c.timeoutMs := rfl
    have hregistry : (c.settingOut self ss now seed).registry =
        c.registry.relive (c.ownDescriptor self ss) [] [] := rfl
    exact stands_ask _ htimeout rfl List.not_mem_nil rfl hregistry (c.servers.order now seed)

/-- **A registration is a sequential replay.**  Whatever happens while it is going on, in whatever
order,

* until the client takes out what is held back, its registry is as the directory's answer left it;
* until the call returns, an event changes nothing but what is held back;
* when the call returns, it has succeeded if an answer took it and has run out of servers otherwise,
  and the registry is as if everybody had been forgotten, the accepted answer had been taken in, and
  each event had been applied once, in the order in which they came. -/
theorem registry_of_run {c : Client} {self : PeerRef} {ss : List Subscription} {now seed : Nat}
    {ms : List Moment} {r : Registration}
    (hrun : (begin? c self ss now seed).bind (fun r₀ ↦ r₀.run ms) = some r) :
    (.take ∉ ms → r.client.registry =
      c.registry.relive (c.ownDescriptor self ss) ((accepted? ms).getD []) []) ∧
    ((∀ result, r.stage ≠ .returned result) → ∀ e, ∃ held,
      r.step (.event e) = some ⟨{ r.client with held := some (held ++ [e]) }, r.stage⟩) ∧
    (∀ result, r.stage = .returned result →
      result = outcome c (c.servers.order now seed) ms ∧
      r.client.registry =
        c.registry.relive (c.ownDescriptor self ss) ((accepted? ms).getD []) (events ms)) := by
  obtain ⟨r₀, hbegin, hrun⟩ := Option.bind_eq_some_iff.mp hrun
  have h := (stands_begin hbegin).run hrun
  rw [List.nil_append] at h
  cases h with
  | asking _ _ _ hnone _ hheld hregistry =>
    refine ⟨fun _ ↦ ?_, fun _ e ↦ ⟨events ms, ?_⟩, fun result hresult ↦ by cases hresult⟩
    · rw [hnone]
      exact hregistry
    · rw [step, Client.handle_of_held hheld]
  | settling applied held hheld _ htake hregistry =>
    refine ⟨fun hnot ↦ ?_, fun _ e ↦ ⟨held, ?_⟩, fun result hresult ↦ by cases hresult⟩
    · rw [hregistry, htake hnot]
    · rw [step, Client.handle_of_held hheld]
  | applying applied batch held hheld _ htake hregistry =>
    refine ⟨fun hnot ↦ absurd htake hnot, fun _ e ↦ ⟨held, ?_⟩,
      fun result hresult ↦ by cases hresult⟩
    rw [step, Client.handle_of_held hheld]
  | returned hheld htake hregistry =>
    refine ⟨fun hnot ↦ absurd htake hnot, fun hnot ↦ absurd rfl (hnot _), fun result hresult ↦ ?_⟩
    obtain rfl := Stage.returned.inj hresult
    exact ⟨rfl, hregistry⟩

theorem valid_noon :
    (⟨2024, 3, 1⟩ : Date).Valid ∧ 12 < 24 ∧ 0 < 60 ∧ 0 ≤ 60 ∧ 0 < 1000000000 := by
  decide

/-- A client that knows of one directory server. -/
def oneServer : Client :=
  .ofSettings { directoryEndPoints := ["tcp://directory:1"] }
    ⟨⟨⟨2024, 3, 1⟩, 12, 0, 0, 0, valid_noon⟩, []⟩

/-- A peer starts before the answer and stops after it, and is gone for good while these events are
applied. -/
def threeEvents : List Moment :=
  [.event (.started ⟨{ peer := .live ⟨"Abc.P.0"⟩ "tcp://Abc.P.0:1", subscriptions := [] }⟩),
    .answer (.replied 0 (some [])) 0, .event (.stopped ⟨⟨"Abc.P.0"⟩, none, none⟩), .take, .apply,
    .event (.decommissioned ⟨⟨"Abc.P.0"⟩⟩), .apply, .apply, .take, .apply, .apply, .take]

/-- Two batches are taken out, and the call returns. -/
theorem registry_of_threeEvents :
    ∃ r, (begin? oneServer ⟨⟨"Abc.Self.0"⟩, 0⟩ [] 0 0).bind (fun r₀ ↦ r₀.run threeEvents) = some r ∧
      r.stage = .returned (.ok ()) ∧
      r.client.registry = oneServer.registry.relive
        (oneServer.ownDescriptor ⟨⟨"Abc.Self.0"⟩, 0⟩ []) [] (events threeEvents) := by
  have hreturned : ∃ r,
      (begin? oneServer ⟨⟨"Abc.Self.0"⟩, 0⟩ [] 0 0).bind (fun r₀ ↦ r₀.run threeEvents) = some r ∧
        r.stage = .returned (.ok ()) := ⟨_, rfl, rfl⟩
  obtain ⟨r, hrun, hstage⟩ := hreturned
  obtain ⟨-, -, hend⟩ := registry_of_run hrun
  exact ⟨r, hrun, hstage, (hend _ hstage).2⟩

end Registration

end ServiceBus.Directory
