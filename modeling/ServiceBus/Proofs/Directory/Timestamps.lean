import ServiceBus.Proofs.Directory.Independence

/-!
# As of when a peer is known

A peer is known as of a time, its *timestamp*, and what is older is passed over.  If that is to put
the news of a peer in their order, the timestamp must not go back.

Three kinds of deeds set it.  A descriptor that is taken in and a stop are compared with it first
(`Deed.newer`), and so never set it back.  An update of the local peer is not: it sets the timestamp
that the client gave it, whatever is known.  `Registry.Follows.since?_perform` says for each peer as
of when it is known after a deed.

The timestamps that one client gives go up (`Situation.pairwise_stamps`).  So an update sets back
only what came from the directory; `Situation.since?_of_run` says that this is how a timestamp goes
back and that there is no other way, and `Situation.since?_hearsLater` shows it.
-/

set_option autoImplicit false

namespace ServiceBus.Directory

/-- As of when a peer is known. -/
def Registry.since? (r : Registry) (id : PeerId) : Option Instant :=
  (r.members.find? id).bind Member.timestamp

namespace Deed

/-! ## One deed -/

/-- What is told, unless something newer is known. -/
def newer (known told : Option Instant) : Option Instant :=
  if Instant.isStale known told then known else told

/-- As of when the subject is known afterwards, given what is known of it. -/
def sinceAfter (m? : Option Member) : Deed → Option Instant
  | restart self => self.timestamp
  | learn d => newer (m?.bind Member.timestamp) d.timestamp
  | apply (.started b) => newer (m?.bind Member.timestamp) b.descriptor.timestamp
  | apply (.subscriptionsUpdated b) => newer (m?.bind Member.timestamp) b.descriptor.timestamp
  | apply (.stopped b) => m?.bind fun m ↦ newer m.timestamp b.timestamp
  | apply (.decommissioned _) => none
  | apply _ => m?.bind Member.timestamp
  | replace _ _ timestamp => m?.bind fun _ ↦ timestamp

/-- The deed is an update of the peer that is older than a time. -/
def Lags (id : PeerId) (time : Instant) : Deed → Prop
  | replace id' _ (some t) => id' = id ∧ t < time
  | _ => False

theorem newer_eq_or (known told : Option Instant) :
    newer known told = known ∨ newer known told = told := by
  unfold newer
  split
  · exact Or.inl rfl
  · exact Or.inr rfl

theorem le_newer (known told : Instant) :
    ∃ t, newer (some known) (some told) = some t ∧ known ≤ t := by
  unfold newer
  split
  · exact ⟨known, rfl, Int.le_refl _⟩
  · next hstale =>
    refine ⟨told, rfl, ?_⟩
    have hnot : ¬ told < known := by simpa [Instant.isStale] using hstale
    rw [Instant.lt_iff_rank] at hnot
    rw [Instant.le_iff_rank]
    omega

/-- Whatever sets the time at which a peer is known, sets its own time. -/
theorem sinceAfter_eq_or {m? : Option Member} {deed : Deed} {t : Instant}
    (h : deed.sinceAfter m? = some t) :
    m?.bind Member.timestamp = some t ∨ deed.timestamp? = some t := by
  have hnewer : ∀ {known told : Option Instant}, newer known told = some t →
      known = some t ∨ told = some t := fun {known told} hnew ↦
    (newer_eq_or known told).imp (fun hsame ↦ hsame.symm.trans hnew) fun hsame ↦
      hsame.symm.trans hnew
  cases deed with
  | restart self => exact Or.inr h
  | learn d => exact hnewer h
  | replace id ss timestamp =>
    obtain ⟨m, -, htime⟩ := Option.bind_eq_some_iff.mp h
    exact Or.inr htime
  | apply e =>
    cases e with
    | started b => exact hnewer h
    | subscriptionsUpdated b => exact hnewer h
    | stopped b =>
      obtain ⟨m, rfl, htime⟩ := Option.bind_eq_some_iff.mp h
      exact hnewer htime
    | decommissioned b => cases h
    | _ => exact Or.inl h

/-- From one time to the next, for the subject: it goes back only where an update lags. -/
theorem sinceAfter_of_known {m : Member} {deed : Deed} {t : Instant} (hdated : deed.Dated)
    (hnot : ¬ deed.Renews deed.subject) (ht : m.timestamp = some t) :
    ∃ t', deed.sinceAfter (some m) = some t' ∧ (t' < t ↔ deed.Lags deed.subject t) := by
  have hsame : ∃ t', m.timestamp = some t' ∧ (t' < t ↔ False) :=
    ⟨t, ht, by rw [Instant.lt_iff_rank]; simp⟩
  have hnewer : ∀ told : Option Instant, told.isSome →
      ∃ t', newer m.timestamp told = some t' ∧ (t' < t ↔ False) := fun told htold ↦ by
    obtain ⟨u, rfl⟩ := Option.isSome_iff_exists.mp htold
    obtain ⟨t', hnew, hle⟩ := le_newer t u
    refine ⟨t', ht ▸ hnew, ?_⟩
    rw [Instant.le_iff_rank] at hle
    rw [Instant.lt_iff_rank]
    exact iff_of_false (by omega) not_false
  cases deed with
  | restart self => exact absurd trivial hnot
  | learn d => exact hnewer d.timestamp hdated
  | replace id ss timestamp =>
    obtain ⟨u, rfl⟩ := Option.isSome_iff_exists.mp hdated
    exact ⟨u, rfl, (and_iff_right rfl).symm⟩
  | apply e =>
    cases e with
    | started b => exact hnewer b.descriptor.timestamp hdated
    | subscriptionsUpdated b => exact hnewer b.descriptor.timestamp hdated
    | stopped b => exact hnewer b.timestamp hdated
    | decommissioned b => exact absurd rfl hnot
    | _ => exact hsame

end Deed

namespace Registry

theorem since?_of_known {r : Registry} {id : PeerId} {m : Member}
    (h : r.members.find? id = some m) : r.since? id = m.timestamp := by
  rw [since?, h]
  rfl

theorem since?_of_unknown {r : Registry} {id : PeerId} (h : r.members.find? id = none) :
    r.since? id = none := by
  rw [since?, h]
  rfl

namespace Follows

variable {r : Registry} {l : Chronicle} {id : PeerId} {t : Instant}

theorem since?_learn (h : r.Follows l) (d : Descriptor Peer) (refresh : Bool) :
    (r.learn d refresh).1.since? d.peer.id = Deed.newer (r.since? d.peer.id) d.timestamp := by
  cases hm : r.members.find? d.peer.id with
  | none =>
    rw [since?_of_known (find?_learn_of_unknown hm refresh), since?_of_unknown hm]
    rfl
  | some m =>
    rw [since?_of_known hm, Deed.newer]
    cases hstale : Instant.isStale m.timestamp d.timestamp with
    | true =>
      rw [learn_of_stale hm hstale, since?_of_known hm]
      rfl
    | false =>
      rw [since?_of_known (find?_learn_of_known hm (h.own _ _ hm) hstale refresh)]
      rfl

theorem since?_amendInterests (h : r.Follows l) (id : PeerId) (type : MessageType)
    (change : Interests → Interests × List Change) :
    (r.amendInterests id type change).1.since? id = r.since? id := by
  rw [Registry.amendInterests, amend]
  cases hm : r.members.find? id with
  | none => rfl
  | some m =>
    have hput : (r.put m (change m.interests)).members.find? id =
        some { m with interests := (change m.interests).1 } := by
      rw [find?_put, if_pos (h.own id m hm).symm]
    exact (since?_of_known hput).trans (since?_of_known hm).symm

end Follows

theorem since?_setResponding (r : Registry) (id : PeerId) (type : MessageType)
    (responding : Bool) : (r.setResponding id type responding).1.since? id = r.since? id := by
  rw [setResponding, amend]
  cases r.members.find? id <;> rfl

theorem since?_stop (r : Registry) (b : Stopped) :
    (r.apply (.stopped b)).1.since? b.peer =
      (r.members.find? b.peer).bind fun m ↦ Deed.newer m.timestamp b.timestamp := by
  rw [apply, amend]
  cases hm : r.members.find? b.peer with
  | none => exact since?_of_unknown hm
  | some m =>
    dsimp only
    rw [Option.bind_some, Deed.newer]
    split
    · exact since?_of_known hm
    · refine (since?_of_known (m := { m with timestamp := b.timestamp }) ?_)
      exact (Table.find?_insert ..).trans (if_pos rfl)

theorem since?_decommission (r : Registry) (b : Decommissioned) :
    (r.apply (.decommissioned b)).1.since? b.peer = none := by
  rw [apply, amend]
  cases hm : r.members.find? b.peer with
  | none => exact since?_of_unknown hm
  | some m => exact since?_of_unknown ((Table.find?_erase ..).trans (if_pos rfl))

namespace Follows

variable {r : Registry} {l : Chronicle} {id : PeerId} {t : Instant}

theorem since?_subject (h : r.Follows l) (deed : Deed) :
    (deed.perform r).since? deed.subject =
      deed.sinceAfter (r.members.find? deed.subject) := by
  cases deed with
  | restart self => exact since?_of_known ((find?_put ..).trans (if_pos rfl))
  | learn d => exact h.since?_learn d true
  | replace id ss timestamp =>
    cases hm : r.members.find? id with
    | none =>
      rw [Deed.perform, replaceInterests_of_unknown hm]
      exact (since?_of_unknown hm).trans (by rw [Deed.subject, hm]; rfl)
    | some m =>
      refine (since?_of_known (find?_replaceInterests hm (h.own id m hm) ss timestamp)).trans ?_
      rw [Deed.subject, hm]
      rfl
  | apply e =>
    cases e with
    | started b => exact h.since?_learn b.descriptor true
    | subscriptionsUpdated b => exact h.since?_learn b.descriptor false
    | stopped b => exact since?_stop r b
    | decommissioned b => exact since?_decommission r b
    | subscriptionsAdded b => exact h.since?_amendInterests b.peer _ _
    | subscriptionsRemoved b => exact h.since?_amendInterests b.peer _ _
    | subscriptionsForTypesUpdated b => exact h.since?_amendInterests b.peer _ _
    | notResponding b => exact since?_setResponding r b.peer _ false
    | responding b => exact since?_setResponding r b.peer _ true

/-- **As of when each peer is known after a deed.** -/
theorem since?_perform (h : r.Follows l) (deed : Deed) (id : PeerId) :
    (deed.perform r).since? id =
      if id = deed.subject then deed.sinceAfter (r.members.find? id)
      else if deed.forgets then none else r.since? id := by
  split
  · next hid =>
    subst hid
    exact h.since?_subject deed
  · next hid =>
    cases hforgets : deed.forgets with
    | false =>
      rw [since?, (h.onlyAt_perform hforgets).members id hid]
      rfl
    | true =>
      cases deed with
      | restart self => exact since?_of_unknown ((find?_put ..).trans (if_neg hid))
      | _ => cases hforgets

/-- Whatever a peer is known as of was so before, or is the time of the deed. -/
theorem since?_perform_eq_or (h : r.Follows l) {deed : Deed}
    (ht : (deed.perform r).since? id = some t) :
    r.since? id = some t ∨ deed.subject = id ∧ deed.timestamp? = some t := by
  rw [h.since?_perform] at ht
  split at ht
  · next hid => exact (Deed.sinceAfter_eq_or ht).imp_right fun htime ↦ ⟨hid.symm, htime⟩
  · split at ht
    · cases ht
    · exact Or.inl ht

/-- A deed sets the time back just where it is an update that lags. -/
theorem since?_perform_of_known (h : r.Follows l) {deed : Deed} (hdated : deed.Dated)
    (hnot : ¬ deed.Renews id) (ht : r.since? id = some t) :
    ∃ t', (deed.perform r).since? id = some t' ∧ (t' < t ↔ deed.Lags id t) := by
  rw [h.since?_perform]
  split
  · next hid =>
    subst hid
    obtain ⟨m, hm, htime⟩ := Option.bind_eq_some_iff.mp ht
    rw [hm]
    exact Deed.sinceAfter_of_known hdated hnot htime
  · next hid =>
    have hforgets : deed.forgets = false := by
      cases deed with
      | restart self => exact absurd trivial hnot
      | _ => rfl
    refine ⟨t, by rw [hforgets]; exact ht, ?_⟩
    rw [Instant.lt_iff_rank]
    refine iff_of_false (by omega) fun hlags ↦ ?_
    unfold Deed.Lags at hlags
    split at hlags
    · exact hid hlags.1.symm
    · exact hlags

end Follows

end Registry

/-! ## The timestamps that a client gives -/

/-- The timestamp that the client gave a deed, if it is one of its own. -/
def Deed.stamp? : Deed → Option Instant
  | .restart self => self.timestamp
  | .replace _ _ timestamp => timestamp
  | _ => none

/-- The deed is what the directory tells. -/
def Deed.FromDirectory : Deed → Prop
  | .learn _ => True
  | .apply _ => True
  | _ => False

/-- An own deed has the time that the client gave it. -/
theorem Deed.stamp?_of_not_fromDirectory {deed : Deed} (h : ¬ deed.FromDirectory) :
    deed.stamp? = deed.timestamp? := by
  cases deed with
  | learn d => exact absurd trivial h
  | apply e => exact absurd trivial h
  | restart self => rfl
  | replace id ss timestamp => rfl

/-- A time is after all timestamps that were given. -/
def Stamps.Before (s : Stamps) (t : Instant) : Prop := ∀ last, s.last = some last → last < t

namespace Client

theorem before_of_stamp {c : Client} {t : Instant} (h : c.stamp.1 = some t) :
    c.stamps.Before t ∧ c.stamp.2.stamps.last = some t := by
  have htake : (c.stamps.take c.clock.read.1).1 = some t := h
  have hstamps : c.stamp.2.stamps = (c.stamps.take c.clock.read.1).2 := rfl
  rw [hstamps]
  unfold Stamps.take at htake ⊢
  split at htake
  · next u hnext =>
    obtain rfl := Option.some.inj htake
    exact ⟨fun last hlast ↦ Stamps.last_lt_of_next? hlast hnext, rfl⟩
  · cases htake

theorem stamps_of_no_stamp {c : Client} (h : c.stamp.1 = none) :
    c.stamp.2.stamps = c.stamps := by
  have htake : (c.stamps.take c.clock.read.1).1 = none := h
  have hstamps : c.stamp.2.stamps = (c.stamps.take c.clock.read.1).2 := rfl
  rw [hstamps]
  unfold Stamps.take at htake ⊢
  split at htake
  · cases htake
  · rfl

theorem stamps_handle (c : Client) (e : Event) : (c.handle e).1.stamps = c.stamps := by
  rw [handle]
  cases c.held <;> rfl

theorem stamps_tryNext (c : Client) (command : Command) (selection rest : List Peer) :
    (c.tryNext command selection rest).1.stamps = c.stamps := by
  cases rest with
  | cons server rest => rfl
  | nil => cases command <;> rfl

theorem stamps_fallOver (c : Client) (a : Attempt) (now : Nat) (notice : Notice) :
    (c.fallOver a now notice).1.stamps = c.stamps :=
  stamps_tryNext ..

/-- To go on with a call takes no timestamp. -/
theorem stamps_resume (c : Client) (a : Attempt) (answer : Answer) (now : Nat) :
    (c.resume a answer now).1.stamps = c.stamps := by
  have hother : ∀ standing, (c.resumeOther a standing answer now).1.stamps = c.stamps :=
    fun standing ↦ by
      unfold resumeOther
      split
      · rfl
      all_goals exact stamps_fallOver ..
  unfold resume
  split
  · unfold resumeRegister
    split
    · rfl
    all_goals exact stamps_fallOver ..
  · exact hother _
  · exact hother _

theorem stamps_beginRegister (c : Client) (self : PeerRef) (ss : List Subscription)
    (now seed : Nat) : (c.beginRegister self ss now seed).1.stamps = c.stamp.2.stamps := by
  rw [beginRegister]
  dsimp only
  split
  · rfl
  · exact stamps_tryNext ..

theorem stamps_beginUpdate (c : Client) (self : PeerRef) (ss : List Subscription)
    (now seed : Nat) : (c.beginUpdate self ss now seed).1.stamps = c.stamp.2.stamps := by
  rw [beginUpdate]
  dsimp only
  split
  · rfl
  · exact stamps_tryNext ..

theorem stamps_beginUnregister (c : Client) (self : PeerRef) (now seed : Nat) :
    (c.beginUnregister self now seed).1.stamps = c.stamp.2.stamps := by
  rw [beginUnregister]
  dsimp only
  split
  · rfl
  · exact stamps_tryNext ..

/-- A call takes one timestamp, or none and does nothing to the registry. -/
theorem stamps_begin (c : Client) (call : Call) (now seed : Nat) :
    (c.begin call now seed).1.stamps = c.stamp.2.stamps ∨
      (c.begin call now seed).1.stamps = c.stamps ∧ c.deedsOfCall call = [] := by
  cases call with
  | register self ss => exact Or.inl (stamps_beginRegister ..)
  | update ss =>
    rw [begin, deedsOfCall]
    cases c.registeredSelf? with
    | none => exact Or.inr ⟨rfl, rfl⟩
    | some self => exact Or.inl (stamps_beginUpdate ..)
  | unregister =>
    rw [begin, deedsOfCall]
    cases c.registeredSelf? with
    | none => exact Or.inr ⟨rfl, rfl⟩
    | some self => exact Or.inl (stamps_beginUnregister ..)

/-- The deeds of a call have the timestamp that the call has taken. -/
theorem stamp?_deedsOfCall (c : Client) (call : Call) :
    (c.deedsOfCall call).filterMap Deed.stamp? = [] ∨
      ∃ t, c.stamp.1 = some t ∧ (c.deedsOfCall call).filterMap Deed.stamp? = [t] := by
  cases call with
  | unregister => exact Or.inl rfl
  | register self ss =>
    rw [deedsOfCall]
    cases hstamp : c.stamp.1 with
    | none => exact Or.inl rfl
    | some t =>
      have hown : (Deed.restart (c.ownDescriptor self ss)).stamp? = some t := hstamp
      refine Or.inr ⟨t, rfl, ?_⟩
      rw [if_neg (by simp), List.filterMap_cons_some hown]
      rfl
  | update ss =>
    rw [deedsOfCall]
    cases c.registeredSelf? with
    | none => exact Or.inl rfl
    | some self =>
      cases c.stamp.1 with
      | none => exact Or.inl rfl
      | some t => exact Or.inr ⟨t, rfl, rfl⟩

theorem stamp?_deedsOfAnswer (c : Client) (a : Attempt) (answer : Answer) :
    (c.deedsOfAnswer a answer).filterMap Deed.stamp? = [] := by
  have hheld : c.heldDeeds.filterMap Deed.stamp? = [] := by
    simp [heldDeeds, Deed.stamp?]
  unfold deedsOfAnswer
  split
  · next known _ _ =>
    have hlearn : (known.map Deed.learn).filterMap Deed.stamp? = [] := by simp [Deed.stamp?]
    rw [List.filterMap_append, hlearn, hheld]
    rfl
  · split
    · exact hheld
    · rfl
  · rfl

end Client

namespace Situation

/-- What one act does to the timestamps: it has no deed of its own, or one whose timestamp is after
all timestamps before and is the last one then. -/
theorem stamps_step (s : Situation) (act : Act) :
    ((s.deeds act).filterMap Deed.stamp? = [] ∧
      ∀ t, (s.step act).client.stamps.Before t → s.client.stamps.Before t) ∨
    ∃ t, (s.deeds act).filterMap Deed.stamp? = [t] ∧ s.client.stamps.Before t ∧
      (s.step act).client.stamps.last = some t := by
  cases act with
  | event e =>
    refine Or.inl ⟨?_, fun t ht ↦ ?_⟩
    · rw [deeds, Client.deedsOfEvent]
      cases s.client.held <;> rfl
    · exact Client.stamps_handle s.client e ▸ ht
  | answer place answer now =>
    refine Or.inl ?_
    rw [deeds, step]
    cases s.waiting[place]? with
    | none => exact ⟨rfl, fun t ht ↦ ht⟩
    | some a =>
      refine ⟨Client.stamp?_deedsOfAnswer s.client a answer, fun t ht ↦ ?_⟩
      dsimp only at ht
      rwa [client_goOn, Client.stamps_resume] at ht
  | call call now seed =>
    rw [deeds, step, client_goOn]
    obtain htaken | ⟨hsame, hnone⟩ := Client.stamps_begin s.client call now seed
    · rw [htaken]
      obtain hnone | ⟨t, hstamp, hone⟩ := Client.stamp?_deedsOfCall s.client call
      · refine Or.inl ⟨hnone, fun t ht ↦ ?_⟩
        cases hstamp : s.client.stamp.1 with
        | none => rwa [Client.stamps_of_no_stamp hstamp] at ht
        | some u =>
          obtain ⟨hbefore, hlast⟩ := Client.before_of_stamp hstamp
          exact fun last h ↦ Int.lt_trans (hbefore last h) (ht u hlast)
      · obtain ⟨hbefore, hlast⟩ := Client.before_of_stamp hstamp
        exact Or.inr ⟨t, hone, hbefore, hlast⟩
    · rw [hsame, hnone]
      exact Or.inl ⟨rfl, fun t ht ↦ ht⟩

/-- **The timestamps that a client gives go up.** -/
theorem pairwise_stamps (s : Situation) (acts : List Act) :
    ((s.deedsOfRun acts).filterMap Deed.stamp?).Pairwise (· < ·) ∧
      ∀ t ∈ (s.deedsOfRun acts).filterMap Deed.stamp?, s.client.stamps.Before t := by
  induction acts generalizing s with
  | nil => exact ⟨.nil, fun t ht ↦ by cases ht⟩
  | cons act acts ih =>
    obtain ⟨hrest, hafter⟩ := ih (s.step act)
    rw [deedsOfRun, List.filterMap_append]
    obtain ⟨hnone, hbefore⟩ | ⟨t, hone, hbefore, hlast⟩ := s.stamps_step act
    · rw [hnone]
      exact ⟨hrest, fun t ht ↦ hbefore t (hafter t ht)⟩
    · rw [hone]
      refine ⟨.cons (fun u hu ↦ hafter u hu t hlast) hrest, fun u hu ↦ ?_⟩
      cases hu with
      | head => exact hbefore
      | tail _ hu =>
        exact fun last h ↦ Int.lt_trans (hbefore last h) (hafter u hu t hlast)

/-- Of two own deeds the later one has the later timestamp. -/
theorem stamp_lt_of_lt {s : Situation} {acts : List Act} {i j : Nat} {deed deed' : Deed}
    {t t' : Instant} (hij : i < j) (hi : (s.deedsOfRun acts)[i]? = some deed)
    (hj : (s.deedsOfRun acts)[j]? = some deed') (ht : deed.stamp? = some t)
    (ht' : deed'.stamp? = some t') : t < t' := by
  have hpairwise := List.pairwise_filterMap.mp (s.pairwise_stamps acts).1
  obtain ⟨hi', rfl⟩ := List.getElem?_eq_some_iff.mp hi
  obtain ⟨hj', rfl⟩ := List.getElem?_eq_some_iff.mp hj
  exact List.pairwise_iff_getElem.mp hpairwise i j hi' hj' hij t ht t' ht'

/-! ## Runs -/

variable {settings : Settings} {clock : Clock} {roster : Roster} {acts : List Act} {n n' : Nat}
  {id : PeerId} {t : Instant}

/-- After the last deed nothing changes. -/
theorem registryAt_succ_of_none {s : Situation} (h : (s.deedsOfRun acts)[n]? = none) :
    s.registryAt acts (n + 1) = s.registryAt acts n := by
  have hlength : (s.deedsOfRun acts).length ≤ n := List.getElem?_eq_none_iff.mp h
  rw [registryAt, registryAt, List.take_of_length_le (by omega), List.take_of_length_le hlength]

/-- Some deed has told as of when a peer is known. -/
theorem exists_tells_of_since? (ht : ((start settings clock roster).registryAt acts n).since? id =
    some t) :
    ∃ j deed, j < n ∧ ((start settings clock roster).deedsOfRun acts)[j]? = some deed ∧
      deed.subject = id ∧ deed.timestamp? = some t := by
  induction n with
  | zero => cases ht
  | succ n ih =>
    have hbefore : ((start settings clock roster).registryAt acts n).since? id = some t →
        ∃ j deed, j < n + 1 ∧ ((start settings clock roster).deedsOfRun acts)[j]? = some deed ∧
          deed.subject = id ∧ deed.timestamp? = some t := fun h ↦ by
      obtain ⟨j, deed, hj, htells⟩ := ih h
      exact ⟨j, deed, by omega, htells⟩
    cases hdeed : ((start settings clock roster).deedsOfRun acts)[n]? with
    | none =>
      rw [registryAt_succ_of_none hdeed] at ht
      exact hbefore ht
    | some deed =>
      rw [registryAt_succ hdeed] at ht
      obtain hsame | htells :=
        (follows_registryAt settings clock roster acts n).since?_perform_eq_or ht
      · exact hbefore hsame
      · exact ⟨n, deed, Nat.lt_succ_self n, hdeed, htells⟩

/-- The deed at a place sets back the time as of which a peer is known. -/
def SetsBack (s : Situation) (acts : List Act) (id : PeerId) (i : Nat) : Prop :=
  ∃ t t', (s.registryAt acts i).since? id = some t ∧
    (s.registryAt acts (i + 1)).since? id = some t' ∧ t' < t

/-- The deed at a place is an update of a peer that is older than what the directory told of the
peer before. -/
def LagsAt (s : Situation) (acts : List Act) (id : PeerId) (i : Nat) : Prop :=
  ∃ ss t told, (s.deedsOfRun acts)[i]? = some (.replace id ss (some t)) ∧
    (s.registryAt acts i).since? id = some told ∧ t < told ∧
    ∃ j deed, j < i ∧ (s.deedsOfRun acts)[j]? = some deed ∧ deed.FromDirectory ∧
      deed.subject = id ∧ deed.timestamp? = some told

/-- What an update sets back came from the directory, for own timestamps go up. -/
theorem lagsAt_of_lags {ss : List Subscription} {t told : Instant} {i : Nat}
    (hi : ((start settings clock roster).deedsOfRun acts)[i]? = some (.replace id ss (some t)))
    (htold : ((start settings clock roster).registryAt acts i).since? id = some told)
    (hlate : t < told) : (start settings clock roster).LagsAt acts id i := by
  obtain ⟨j, deed, hj, hdeed, hsubject, htime⟩ := exists_tells_of_since? htold
  refine ⟨ss, t, told, hi, htold, hlate, j, deed, hj, hdeed, ?_, hsubject, htime⟩
  by_contra hown
  rw [← Deed.stamp?_of_not_fromDirectory hown] at htime
  have hlt : told < t := stamp_lt_of_lt hj hdeed hi htime rfl
  rw [Instant.lt_iff_rank] at hlate hlt
  omega

theorem setsBack_iff {i : Nat}
    (hdeed : ∀ deed, ((start settings clock roster).deedsOfRun acts)[i]? = some deed →
      deed.Dated ∧ ¬ deed.Renews id) :
    (start settings clock roster).SetsBack acts id i ↔
      (start settings clock roster).LagsAt acts id i := by
  have hfollows := follows_registryAt settings clock roster acts i
  constructor
  · rintro ⟨told, t, htold, ht, hlt⟩
    cases hi : ((start settings clock roster).deedsOfRun acts)[i]? with
    | none =>
      rw [registryAt_succ_of_none hi, htold] at ht
      obtain rfl := Option.some.inj ht
      rw [Instant.lt_iff_rank] at hlt
      omega
    | some deed =>
      obtain ⟨hdated, hnot⟩ := hdeed deed hi
      obtain ⟨t', ht', hlags⟩ := hfollows.since?_perform_of_known hdated hnot htold
      rw [registryAt_succ hi, ht'] at ht
      obtain rfl := Option.some.inj ht
      replace hlags := hlags.mp hlt
      unfold Deed.Lags at hlags
      split at hlags
      · obtain ⟨rfl, hlate⟩ := hlags
        exact lagsAt_of_lags hi htold hlate
      · exact hlags.elim
  · rintro ⟨ss, t, told, hi, htold, hlate, -⟩
    obtain ⟨hdated, hnot⟩ := hdeed _ hi
    obtain ⟨t', ht', hlags⟩ := hfollows.since?_perform_of_known hdated hnot htold
    rw [← registryAt_succ hi] at ht'
    exact ⟨told, t', htold, ht', hlags.mpr ⟨rfl, hlate⟩⟩

/-- A peer goes on to be known, and as of no earlier time unless a deed sets it back. -/
theorem exists_since?_add (k : Nat)
    (ht : ((start settings clock roster).registryAt acts n).since? id = some t)
    (hbetween : ∀ i deed, n ≤ i → i < n + k →
      ((start settings clock roster).deedsOfRun acts)[i]? = some deed →
      deed.Dated ∧ ¬ deed.Renews id) :
    ∃ t', ((start settings clock roster).registryAt acts (n + k)).since? id = some t' ∧
      (t ≤ t' ∨ ∃ i, n ≤ i ∧ i < n + k ∧ (start settings clock roster).SetsBack acts id i) := by
  induction k with
  | zero => exact ⟨t, ht, Or.inl (Int.le_refl _)⟩
  | succ k ih =>
    obtain ⟨u, hu, hbefore⟩ := ih fun i deed hi hi' ↦ hbetween i deed hi (by omega)
    have hstill : ∀ t', u ≤ t' → (t ≤ t' ∨ ∃ i, n ≤ i ∧ i < n + (k + 1) ∧
        (start settings clock roster).SetsBack acts id i) := fun t' hle ↦ by
      obtain hle' | ⟨i, hi, hi', hback⟩ := hbefore
      · exact Or.inl (Int.le_trans hle' hle)
      · exact Or.inr ⟨i, hi, by omega, hback⟩
    rw [← Nat.add_assoc]
    cases hdeed : ((start settings clock roster).deedsOfRun acts)[n + k]? with
    | none =>
      rw [registryAt_succ_of_none hdeed]
      exact ⟨u, hu, hstill u (Int.le_refl _)⟩
    | some deed =>
      obtain ⟨hdated, hnot⟩ := hbetween (n + k) deed (by omega) (by omega) hdeed
      obtain ⟨t', ht', -⟩ := (follows_registryAt settings clock roster acts
        (n + k)).since?_perform_of_known hdated hnot hu
      rw [← registryAt_succ hdeed] at ht'
      refine ⟨t', ht', ?_⟩
      by_cases hlt : t' < u
      · exact Or.inr ⟨n + k, by omega, by omega, u, t', hu, ht', hlt⟩
      · refine hstill t' ?_
        rw [Instant.lt_iff_rank] at hlt
        rw [Instant.le_iff_rank]
        omega

/-- **How the time goes back as of which a peer is known.**  In a run of a client, let a peer be
known as of a time, and from then on let every deed of a kind that has a time tell it, let no
registration begin and the peer not be decommissioned.  Then

* the peer goes on to be known as of some time, and that is not before the first, unless a deed in
  between has set it back;
* a deed sets it back if, and only if, it is an update of the peer with a timestamp before the one
  known, which was told by the directory. -/
theorem since?_of_run (settings : Settings) (clock : Clock) (roster : Roster) (acts : List Act)
    {n n' : Nat} {id : PeerId} {t : Instant} (hle : n ≤ n')
    (ht : ((start settings clock roster).registryAt acts n).since? id = some t)
    (hbetween : ∀ i deed, n ≤ i → i < n' →
      ((start settings clock roster).deedsOfRun acts)[i]? = some deed →
      deed.Dated ∧ ¬ deed.Renews id) :
    (∃ t', ((start settings clock roster).registryAt acts n').since? id = some t' ∧
      (t ≤ t' ∨ ∃ i, n ≤ i ∧ i < n' ∧ (start settings clock roster).SetsBack acts id i)) ∧
    ∀ i, n ≤ i → i < n' →
      ((start settings clock roster).SetsBack acts id i ↔
        (start settings clock roster).LagsAt acts id i) := by
  obtain ⟨k, rfl⟩ := Nat.exists_eq_add_of_le hle
  exact ⟨exists_since?_add k ht hbetween, fun i hi hi' ↦
    setsBack_iff fun deed ↦ hbetween i deed hi hi'⟩

/-- The local peer, as the directory tells of it ten seconds after noon. -/
def toldOfSelf : Descriptor Peer where
  peer := .live ⟨"Abc.Self.0"⟩ "tcp://Abc.Self.0:1"
  subscriptions := []
  timestamp := some (afterNoon 10)

/-- The local peer registers at noon, and the server tells of it as of ten seconds later; then it
updates its subscriptions, still at noon. -/
def hearsLater : List Act :=
  [.call (.register ⟨⟨"Abc.Self.0"⟩, 0⟩ []) 0 0,
    .answer 0 (.replied 0 (some [toldOfSelf])) 0,
    .call (.update []) 0 0]

/-- The slot after noon. -/
def pastNoon : Instant := ⟨⟨2024, 3, 1⟩, 12, 0, 0, 100, by decide⟩

/-- The update lags, and so sets the time back. -/
theorem setsBack_hearsLater :
    withServer.LagsAt hearsLater ⟨"Abc.Self.0"⟩ 2 ∧
      withServer.SetsBack hearsLater ⟨"Abc.Self.0"⟩ 2 := by
  have htold : (withServer.registryAt hearsLater 2).since? ⟨"Abc.Self.0"⟩ =
      some (afterNoon 10) := by decide
  have hlags : withServer.LagsAt hearsLater ⟨"Abc.Self.0"⟩ 2 :=
    ⟨[], pastNoon, afterNoon 10, by with_unfolding_all rfl, htold, by decide, 1,
      .learn toldOfSelf, by decide, rfl, trivial, rfl, rfl⟩
  obtain ⟨-, hback⟩ := since?_of_run { directoryEndPoints := ["tcp://directory:1"] }
    ⟨⟨⟨2024, 3, 1⟩, 12, 0, 0, 0, by decide⟩, []⟩ ⟨#[{ endPoint := "tcp://Abc.Self.0:1" }]⟩
    hearsLater (show 2 ≤ 3 by decide) htold fun i deed hi hi' hdeed ↦ by
      obtain rfl : i = 2 := by omega
      obtain ⟨ss, u, told, hreplace, -⟩ := hlags
      obtain rfl := Option.some.inj (hreplace.symm.trans hdeed)
      exact ⟨rfl, not_false⟩
  exact ⟨hlags, (hback 2 (by decide) (by decide)).mpr hlags⟩

/-- **A timestamp can go back.**  All that the directory tells has a time.  The peer is known as of
ten seconds after noon, and after the update as of the slot after noon. -/
theorem since?_hearsLater :
    withServer.deedsOfRun hearsLater =
      [.restart (withServer.client.ownDescriptor ⟨⟨"Abc.Self.0"⟩, 0⟩ []), .learn toldOfSelf,
        .replace ⟨"Abc.Self.0"⟩ [] (some pastNoon)] ∧
    (∀ deed ∈ withServer.deedsOfRun hearsLater, deed.Dated) ∧
    (withServer.registryAt hearsLater 2).since? ⟨"Abc.Self.0"⟩ = some (afterNoon 10) ∧
    (withServer.registryAt hearsLater 3).since? ⟨"Abc.Self.0"⟩ = some pastNoon ∧
    pastNoon < afterNoon 10 := by
  have hdeeds : withServer.deedsOfRun hearsLater =
      [.restart (withServer.client.ownDescriptor ⟨⟨"Abc.Self.0"⟩, 0⟩ []), .learn toldOfSelf,
        .replace ⟨"Abc.Self.0"⟩ [] (some pastNoon)] := by
    with_unfolding_all rfl
  refine ⟨hdeeds, fun deed hdeed ↦ ?_, by decide, by decide +kernel, by decide⟩
  rw [hdeeds] at hdeed
  cases hdeed with
  | head => exact rfl
  | tail _ hdeed =>
    cases hdeed with
    | head => exact rfl
    | tail _ hdeed =>
      cases hdeed with
      | head => exact rfl
      | tail _ hdeed => cases hdeed

end Situation

end ServiceBus.Directory
