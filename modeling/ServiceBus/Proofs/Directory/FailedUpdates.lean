import ServiceBus.Proofs.Directory.FullSets

/-!
# Updates that fail

An update of the subscriptions of the local peer is tried on one server after the other, and it
fails when all of them were tried (`Client.Pursues`).  But the client replaces what it knows of its
own peer before the first server is asked, and an answer never changes what is known
(`Client.registry_pursue`).  So a failed update leaves what an update leaves that was carried out:
the directory does not know the new subscriptions, and the client says it has them.

`Situation.conduct_update_of_error` says what that is.  The other peers are as they were, and the
local peer has the new subscriptions and the timestamp of the update.  So the client answers as it
did before only if it did not know its own peer any more, or had just this of it already.
-/

set_option autoImplicit false

namespace ServiceBus.Directory

namespace Client

/-! ## A call by itself -/

/-- Goes on with a call as answers come in, each at a time, and nothing else happens. -/
def pursue (c : Client) : Progress → List (Answer × Nat) → Client × Progress
  | .waiting a, (answer, now) :: answers =>
    let (c, _, progress) := c.resume a answer now
    c.pursue progress answers
  | progress, _ => (c, progress)

/-- Makes a call and goes on with it as answers come in, while nothing else happens. -/
def conduct (c : Client) (call : Call) (now seed : Nat) (answers : List (Answer × Nat)) :
    Client × Progress :=
  let (c, _, progress) := c.begin call now seed
  c.pursue progress answers

theorem pursue_finished (c : Client) (result : Except Failure Unit)
    (answers : List (Answer × Nat)) :
    c.pursue (.finished result) answers = (c, .finished result) := by
  cases answers <;> rfl

/-- A call that returns at once waits for no answer. -/
theorem conduct_of_finished {c c' : Client} {call : Call} {now seed : Nat}
    {notices : List Notice} {result : Except Failure Unit}
    (h : c.begin call now seed = (c', notices, .finished result)) (answers : List (Answer × Nat)) :
    c.conduct call now seed answers = (c', .finished result) := by
  rw [conduct, h]
  exact pursue_finished ..

/-- How a command is tried on the servers of a selection: one of them was asked, or one has carried
it out, or all of them were tried. -/
inductive Pursues (command : Command) (selection : List Peer) : Progress → Prop
  | asking {a : Attempt} (hcommand : a.command = command) (hselection : a.selection = selection) :
    Pursues command selection (.waiting a)
  | done : Pursues command selection (.finished (.ok ()))
  | unreachable : Pursues command selection
      (.finished (.error (.directoryUnreachable command.operation (Peer.addresses selection))))

variable {command : Command} {selection : List Peer}

theorem pursues_tryNext (hcommand : ∀ d, command ≠ .register d) (c : Client) (rest : List Peer) :
    Pursues command selection (c.tryNext command selection rest).2.2 := by
  cases rest with
  | cons server rest => exact .asking rfl rfl
  | nil =>
    cases command with
    | register d => exact absurd rfl (hcommand d)
    | update body => exact .unreachable
    | unregister body => exact .unreachable

theorem pursues_resumeOther (c : Client) {a : Attempt} (ha : ∀ d, a.command ≠ .register d)
    (standing : Standing) (answer : Answer) (now : Nat) :
    Pursues a.command a.selection (c.resumeOther a standing answer now).2.2 := by
  unfold resumeOther
  split
  · exact .done
  all_goals exact pursues_tryNext ha _ a.rest

/-- An answer to anything but a registration changes nothing that is known. -/
theorem pursues_resume (hcommand : ∀ d, command ≠ .register d) (c : Client) {a : Attempt}
    (h : Pursues command selection (.waiting a)) (answer : Answer) (now : Nat) :
    Pursues command selection (c.resume a answer now).2.2 ∧
      (c.resume a answer now).1.registry = c.registry := by
  obtain ⟨rfl, rfl⟩ : a.command = command ∧ a.selection = selection := by
    cases h with
    | asking hcommand hselection => exact ⟨hcommand, hselection⟩
  rw [resume]
  split
  · next d hd => exact absurd hd (hcommand d)
  · exact ⟨c.pursues_resumeOther hcommand _ answer now,
      c.registry_resumeOther a hcommand _ answer now⟩
  · exact ⟨c.pursues_resumeOther hcommand _ answer now,
      c.registry_resumeOther a hcommand _ answer now⟩

/-- **Answers to anything but a registration change nothing that is known**, however many come. -/
theorem registry_pursue (hcommand : ∀ d, command ≠ .register d) (c : Client) {progress : Progress}
    (h : Pursues command selection progress) (answers : List (Answer × Nat)) :
    Pursues command selection (c.pursue progress answers).2 ∧
      (c.pursue progress answers).1.registry = c.registry := by
  induction answers generalizing c progress with
  | nil => cases progress <;> exact ⟨h, rfl⟩
  | cons answer answers ih =>
    cases progress with
    | finished result => exact ⟨h, rfl⟩
    | waiting a =>
      obtain ⟨hnext, hregistry⟩ := c.pursues_resume hcommand h answer.1 answer.2
      rw [← hregistry]
      exact ih _ hnext

theorem pursues_beginUpdate {c : Client} (hstamp : c.stamp.1 ≠ none) (self : PeerRef)
    (ss : List Subscription) (now seed : Nat) :
    Pursues (.update ⟨self.id, ss, c.stamp.1⟩) (c.servers.order now seed)
      (c.beginUpdate self ss now seed).2.2 := by
  rw [beginUpdate]
  dsimp only
  rw [if_neg hstamp]
  exact pursues_tryNext (fun d hd ↦ by cases hd) ..

theorem pursues_beginUnregister {c : Client} (hstamp : c.stamp.1 ≠ none) (self : PeerRef)
    (now seed : Nat) :
    ∃ body selection,
      Pursues (.unregister body) selection (c.beginUnregister self now seed).2.2 := by
  rw [beginUnregister]
  dsimp only
  rw [if_neg hstamp]
  exact ⟨_, _, pursues_tryNext (fun d hd ↦ by cases hd) ..⟩

/-- **An update is done before it is asked for.**  Whatever the servers answer, what is known is
what was known before with the interests of the local peer replaced; and if the update fails, all
servers were tried. -/
theorem conduct_update {c : Client} {self : PeerRef} {t : Instant}
    (hself : c.registeredSelf? = some self) (hstamp : c.stamp.1 = some t)
    (ss : List Subscription) (now seed : Nat) (answers : List (Answer × Nat)) :
    (c.conduct (.update ss) now seed answers).1.registry =
      c.registry.replaceInterests self.id ss (some t) ∧
    ∀ failure, (c.conduct (.update ss) now seed answers).2 = .finished (.error failure) →
      failure = .directoryUnreachable "update subscriptions"
        (Peer.addresses (c.servers.order now seed)) := by
  have hpursues := pursues_beginUpdate (hstamp ▸ Option.some_ne_none t) self ss now seed
  have hbegin : c.begin (.update ss) now seed = c.beginUpdate self ss now seed := by
    rw [begin, hself]
  obtain ⟨hend, hregistry⟩ := registry_pursue (fun d hd ↦ by cases hd)
    (c.beginUpdate self ss now seed).1 hpursues answers
  rw [conduct, hbegin]
  refine ⟨?_, fun failure hfailed ↦ ?_⟩
  · refine hregistry.trans ((c.registry_beginUpdate self ss now seed).trans ?_)
    rw [hstamp]
    rfl
  · rw [hfailed] at hend
    cases hend
    rfl

/-- Without a timestamp the update fails at once, and nothing was done. -/
theorem conduct_update_of_no_stamp {c : Client} {self : PeerRef}
    (hself : c.registeredSelf? = some self) (hstamp : c.stamp.1 = none) (ss : List Subscription)
    (now seed : Nat) (answers : List (Answer × Nat)) :
    (c.conduct (.update ss) now seed answers).1.registry = c.registry ∧
      (c.conduct (.update ss) now seed answers).2 = .finished (.error .endOfTime) := by
  have hbegin : c.begin (.update ss) now seed = (c.stamp.2, [], .finished (.error .endOfTime)) := by
    rw [begin, hself]
    dsimp only
    rw [beginUpdate]
    dsimp only
    rw [if_pos hstamp]
  rw [conduct_of_finished hbegin]
  exact ⟨rfl, rfl⟩

/-- To leave is asked for before anything is done: whatever the servers answer, what is known stays
as it was. -/
theorem registry_conduct_unregister (c : Client) (now seed : Nat) (answers : List (Answer × Nat)) :
    (c.conduct .unregister now seed answers).1.registry = c.registry := by
  cases hself : c.registeredSelf? with
  | none =>
    have hbegin : c.begin .unregister now seed = (c, [], .finished (.error .notRegistered)) := by
      rw [begin, hself]
    rw [conduct_of_finished hbegin]
  | some self =>
    have hbegin : c.begin .unregister now seed = c.beginUnregister self now seed := by
      rw [begin, hself]
    by_cases hstamp : c.stamp.1 = none
    · have hnone : c.beginUnregister self now seed =
          (c.stamp.2, [], .finished (.error .endOfTime)) := by
        rw [beginUnregister]
        dsimp only
        rw [if_pos hstamp]
      rw [conduct_of_finished (hbegin.trans hnone)]
      rfl
    · obtain ⟨body, selection, hpursues⟩ := pursues_beginUnregister hstamp self now seed
      obtain ⟨-, hregistry⟩ := registry_pursue (fun d hd ↦ by cases hd)
        (c.beginUnregister self now seed).1 hpursues answers
      rw [conduct, hbegin]
      exact hregistry.trans (c.registry_beginUnregister self now seed)

end Client

namespace Situation

/-- A call by itself is among the acts of the surroundings: the call is made, and then nothing
happens but that its servers answer.  An answer that comes when the call has returned is passed
over. -/
theorem client_run_pursue (others : List Attempt) (c : Client) (notices : List Notice)
    (progress : Progress) (answers : List (Answer × Nat)) :
    ((goOn others (c, notices, progress)).run
        (answers.map fun answer ↦ .answer others.length answer.1 answer.2)).client =
      (c.pursue progress answers).1 := by
  induction answers generalizing c notices progress with
  | nil =>
    cases progress <;> rfl
  | cons answer answers ih =>
    cases progress with
    | finished result =>
      have hstep : (goOn others (c, notices, .finished result)).step
          (.answer others.length answer.1 answer.2) =
            goOn others (c, notices, .finished result) := by
        simp [goOn, step]
      rw [List.map_cons, run, List.foldl_cons, hstep]
      rw [Client.pursue_finished, ← c.pursue_finished result answers]
      exact ih c notices (.finished result)
    | waiting a =>
      have hstep : (goOn others (c, notices, .waiting a)).step
          (.answer others.length answer.1 answer.2) =
            goOn others (c.resume a answer.1 answer.2) := by
        simp [goOn, step, List.eraseIdx_append_of_length_le]
      rw [List.map_cons, run, List.foldl_cons, hstep]
      exact ih ..

theorem client_run_conduct (s : Situation) (call : Call) (now seed : Nat)
    (answers : List (Answer × Nat)) :
    (s.run (.call call now seed ::
        answers.map fun answer ↦ .answer s.waiting.length answer.1 answer.2)).client =
      (s.client.conduct call now seed answers).1 :=
  client_run_pursue s.waiting _ _ _ answers

end Situation

namespace Registry.Follows

variable {r r' : Registry} {l l' : Chronicle} {id : PeerId}

/-- Who handles a topic hangs on what was told of each peer. -/
theorem mem_ids_handlers_congr (h : r.Follows l) (h' : r'.Follows l') (hsame : l' id = l id)
    (topic : Topic) :
    id ∈ (r'.handlers topic).map PeerRef.id ↔ id ∈ (r.handlers topic).map PeerRef.id := by
  rw [handlers, handlers, Index.mem_ids_handlers h.index.tidy, Index.mem_ids_handlers h'.index.tidy]
  simp only [h.index.holdsId_iff, h'.index.holdsId_iff, hsame]

/-! ## What a replacement changes -/

/-- Of other peers the same is told as before. -/
theorem told?_replaceInterests_of_ne (h : r.Follows l) {self : PeerId} (hid : id ≠ self)
    (ss : List Subscription) (timestamp : Option Instant) :
    (r.replaceInterests self ss timestamp).told? id = r.told? id := by
  cases hm : r.members.find? self with
  | none => rw [replaceInterests_of_unknown hm]
  | some m =>
    rw [replaceInterests_of_known hm, told?, told?, descriptor?, descriptor?, find?_put,
      if_neg (h.own _ _ hm ▸ hid)]
    rfl

/-- Other peers handle what they handled before. -/
theorem mem_ids_handlers_replaceInterests_of_ne (h : r.Follows l) {self : PeerId} (hid : id ≠ self)
    (ss : List Subscription) (timestamp : Option Instant) (topic : Topic) :
    id ∈ ((r.replaceInterests self ss timestamp).handlers topic).map PeerRef.id ↔
      id ∈ (r.handlers topic).map PeerRef.id :=
  h.mem_ids_handlers_congr (h.replaceInterests self ss timestamp) (if_neg hid) topic

/-- The peer itself has the new timestamp, and it lists the new subscriptions and those that it
enabled later. -/
theorem told?_replaceInterests (h : r.Follows l) {d : Descriptor Peer} (hd : r.told? id = some d)
    (ss : List Subscription) (timestamp : Option Instant) :
    ∃ listed, (r.replaceInterests id ss timestamp).told? id =
        some { d with subscriptions := listed, timestamp } ∧
      ∀ s, s ∈ listed ↔ s ∈ ss ∨ (s ∈ d.subscriptions ∧ r.isNewer id s timestamp) := by
  cases hm : r.members.find? id with
  | none =>
    rw [told?_of_unknown hm] at hd
    cases hd
  | some m =>
    rw [told?_of_known hm] at hd
    obtain rfl := Option.some.inj hd
    refine ⟨(m.interests.replace ss timestamp).1.enabled, ?_, fun s ↦ ?_⟩
    · rw [told?_of_known (find?_replaceInterests hm (h.own _ _ hm) ss timestamp),
        replaceInterests_of_known hm]
      rfl
    · rw [Interests.mem_enabled, Interests.isEnabled_replace, isNewer_of_known hm]
      simp [Descriptor.withPeer, Member.descriptor, Interests.mem_enabled]

/-- A replacement is not seen that only clears the remains. -/
theorem answersLike_replaceInterests_of_same (h : r.Follows l) {m : Member}
    (hm : r.members.find? id = some m) {ss : List Subscription} {timestamp : Option Instant}
    (htime : m.timestamp = timestamp)
    (hsame : m.interests.replace ss timestamp = (m.interests.withoutRemains, [])) :
    r.AnswersLike (r.replaceInterests id ss timestamp) := by
  have hafter := h.replaceInterests id ss timestamp
  rw [hm, Option.elim_some, hsame, Chronicle.note_nil] at hafter
  refine ⟨fun id' ↦ ?_, fun topic id' ↦ (h.mem_ids_handlers_congr hafter rfl topic).symm⟩
  by_cases hid : id' = id
  · subst hid
    have hknown := find?_replaceInterests hm (h.own _ _ hm) ss timestamp
    have henabled : m.interests.withoutRemains.enabled = m.interests.enabled :=
      Interests.enabled_congr m.interests.isEnabled_withoutRemains
    rw [told?_of_known hm, told?_of_known hknown, hsame, replaceInterests_of_known hm, ← htime,
      Member.descriptor, Member.descriptor, henabled]
    rfl
  · exact (h.told?_replaceInterests_of_ne hid ss timestamp).symm

/-- A replacement is not seen if it finds the peer with the same timestamp, and with no subscription
to enable or to disable. -/
theorem answersLike_replaceInterests_iff (h : r.Follows l) (id : PeerId) (ss : List Subscription)
    (timestamp : Option Instant) :
    r.AnswersLike (r.replaceInterests id ss timestamp) ↔
      ∀ d, r.told? id = some d → d.timestamp = timestamp ∧ (∀ s ∈ ss, s ∈ d.subscriptions) ∧
        ∀ s ∈ d.subscriptions, s ∈ ss ∨ r.isNewer id s timestamp := by
  refine ⟨fun hlike d hd ↦ ?_, fun hsame ↦ ?_⟩
  · obtain ⟨listed, hlisted, hmem⟩ := h.told?_replaceInterests hd ss timestamp
    have heq := Option.some.inj ((hd.symm.trans (hlike.told id)).trans hlisted)
    have hsubscriptions : d.subscriptions = listed := congrArg Descriptor.subscriptions heq
    rw [← hsubscriptions] at hmem
    refine ⟨congrArg Descriptor.timestamp heq, fun s hs ↦ (hmem s).mpr (Or.inl hs), fun s hs ↦ ?_⟩
    exact ((hmem s).mp hs).imp_right And.right
  · cases hm : r.members.find? id with
    | none =>
      rw [replaceInterests_of_unknown hm]
      exact .refl r
    | some m =>
      obtain ⟨htime, hnew, hold⟩ := hsame _ (told?_of_known hm)
      refine h.answersLike_replaceInterests_of_same hm htime (Interests.replace_of_same ?_ ?_)
      · exact fun s hs ↦ Interests.mem_enabled.mp (hnew s hs)
      · intro s henabled hs
        rw [← isNewer_of_known hm]
        exact (hold s (Interests.mem_enabled.mpr henabled)).resolve_left hs

end Registry.Follows

namespace Situation

/-- **What a failed update leaves.**  In every situation that a client can get into, let an update
of the registered local peer fail, while nothing else happens.  Then there was no timestamp for it,
and what is known is as it was; or all servers were tried, and

* of the other peers the same is told as before, and they handle the same topics;
* the local peer, if it is still known, has the timestamp of the update, and lists the subscriptions
  of the update and those of its own that were enabled later than that; all else is as it was;
* so the client answers as it did before only if the local peer is not known, or had that timestamp
  already and just these subscriptions. -/
theorem conduct_update_of_error (settings : Settings) (clock : Clock) (roster : Roster)
    (acts : List Act) {self : PeerRef} {ss : List Subscription} {now seed : Nat}
    {answers : List (Answer × Nat)} {failure : Failure}
    (hself : ((start settings clock roster).run acts).client.registeredSelf? = some self)
    (hfailed : (((start settings clock roster).run acts).client.conduct (.update ss) now seed
      answers).2 = .finished (.error failure)) :
    let c := ((start settings clock roster).run acts).client
    let before := c.registry
    let after := (c.conduct (.update ss) now seed answers).1.registry
    (c.stamp.1 = none ∧ failure = .endOfTime ∧ after = before) ∨
    ∃ t, c.stamp.1 = some t ∧
      failure = .directoryUnreachable "update subscriptions"
        (Peer.addresses (c.servers.order now seed)) ∧
      (∀ id, id ≠ self.id → after.told? id = before.told? id ∧ ∀ topic,
        id ∈ (after.handlers topic).map PeerRef.id ↔
          id ∈ (before.handlers topic).map PeerRef.id) ∧
      (∀ d, before.told? self.id = some d → ∃ listed,
        after.told? self.id = some { d with subscriptions := listed, timestamp := some t } ∧
        ∀ sub, sub ∈ listed ↔
          sub ∈ ss ∨ (sub ∈ d.subscriptions ∧ before.isNewer self.id sub (some t))) ∧
      (before.AnswersLike after ↔ ∀ d, before.told? self.id = some d →
        d.timestamp = some t ∧ (∀ sub ∈ ss, sub ∈ d.subscriptions) ∧
          ∀ sub ∈ d.subscriptions, sub ∈ ss ∨ before.isNewer self.id sub (some t)) := by
  intro c before after
  have hfollows : before.Follows _ := follows_run settings clock roster acts
  cases hstamp : c.stamp.1 with
  | none =>
    obtain ⟨hregistry, hend⟩ := Client.conduct_update_of_no_stamp hself hstamp ss now seed answers
    rw [hfailed] at hend
    cases hend
    exact Or.inl ⟨rfl, rfl, hregistry⟩
  | some t =>
    obtain ⟨hregistry, hfailure⟩ := Client.conduct_update hself hstamp ss now seed answers
    have hafter : after = before.replaceInterests self.id ss (some t) := hregistry
    rw [hafter]
    exact Or.inr ⟨t, rfl, hfailure failure hfailed,
      fun id hid ↦ ⟨hfollows.told?_replaceInterests_of_ne hid ss (some t),
        hfollows.mem_ids_handlers_replaceInterests_of_ne hid ss (some t)⟩,
      fun d hd ↦ hfollows.told?_replaceInterests hd ss (some t),
      hfollows.answersLike_replaceInterests_iff self.id ss (some t)⟩

/-- A client that has registered its peer with a subscription, and has heard of another peer. -/
def knowsOne : List Act :=
  registers [.toAll fakeEvent] ++ [.event (.started ⟨told [.toAll fakeEvent] 0⟩)]

/-- The one server does not answer an update to no subscriptions.  The update has failed, the other
peer is as it was, and the client does not answer as it did before. -/
theorem told?_knowsOne :
    let c := (withServer.run knowsOne).client
    let c' := c.conduct (.update []) 0 0 [(.silent, 0)]
    c'.2 = .finished (.error (.directoryUnreachable "update subscriptions"
      "Bus.DirectoryService.0@tcp://directory:1")) ∧
    c'.1.registry.told? ⟨"Abc.P.0"⟩ = c.registry.told? ⟨"Abc.P.0"⟩ ∧
    ¬ c.registry.AnswersLike c'.1.registry := by
  have hself : (withServer.run knowsOne).client.registeredSelf? = some ⟨⟨"Abc.Self.0"⟩, 0⟩ := rfl
  have hfailed : ((withServer.run knowsOne).client.conduct (.update []) 0 0 [(.silent, 0)]).2 =
      .finished (.error (.directoryUnreachable "update subscriptions"
        "Bus.DirectoryService.0@tcp://directory:1")) := by
    with_unfolding_all rfl
  obtain ⟨hstamp, -⟩ | ⟨t, hstamp, -, hothers, -, hsame⟩ := conduct_update_of_error
    { directoryEndPoints := ["tcp://directory:1"] } ⟨⟨⟨2024, 3, 1⟩, 12, 0, 0, 0, by decide⟩, []⟩
    ⟨#[{ endPoint := "tcp://Abc.Self.0:1" }]⟩ knowsOne hself hfailed
  · exact absurd hstamp (by decide)
  · refine ⟨hfailed, (hothers ⟨"Abc.P.0"⟩ (by decide)).1, fun hlike ↦ ?_⟩
    have htold : ((withServer.run knowsOne).client.registry.told? ⟨"Abc.Self.0"⟩).map
        Descriptor.timestamp = some (some (afterNoon 0)) := by
      decide
    obtain ⟨d, hd, hbefore⟩ := Option.map_eq_some_iff.mp htold
    obtain ⟨hafter, -⟩ := hsame.mp hlike d hd
    rw [hbefore, ← hstamp] at hafter
    exact absurd hafter (by decide)

/-- **A failed update can change what is known.**  A peer registers with a subscription; then it
updates to none, and the server refuses.  The client says that the update has failed, and that its
peer does not ask for the subscription any more. -/
theorem handlers_refusedUpdate :
    let c := (withServer.run (registers [.toAll fakeEvent])).client
    let c' := c.conduct (.update []) 0 0 [(.replied 1 none, 0)]
    c.registeredSelf? = some ⟨⟨"Abc.Self.0"⟩, 0⟩ ∧
    c'.2 = .finished (.error (.directoryUnreachable "update subscriptions"
      "Bus.DirectoryService.0@tcp://directory:1")) ∧
    (c.registry.handlers ⟨fakeEvent, .empty⟩).map PeerRef.id = [⟨"Abc.Self.0"⟩] ∧
    (c'.1.registry.handlers ⟨fakeEvent, .empty⟩).map PeerRef.id = [] ∧
    ¬ c.registry.AnswersLike c'.1.registry := by
  refine ⟨rfl, by with_unfolding_all rfl, by decide, by decide +kernel, fun hlike ↦ ?_⟩
  exact absurd ((hlike.handlers ⟨fakeEvent, .empty⟩ ⟨"Abc.Self.0"⟩).mp (by decide))
    (by decide +kernel)

end Situation

end ServiceBus.Directory
