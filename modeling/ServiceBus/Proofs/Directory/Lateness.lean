import ServiceBus.Proofs.Directory.Consent
import ServiceBus.Proofs.Directory.Statuses

/-!
# Events that come late

An event that is older than what is known of a subscription should not change it.  What is known is
the status of the subscription with its timestamp, and `Registry.Follows.reaches_perform` says how
far that goes: a deed announces something as of its own time, and what is older is passed over.

But a deed that replaces the whole set of subscriptions forgets beforehand what was given up, and
with it the time at which it was given up.  From then on an older event is taken.  So the order of
events is kept for a subscription as long as no replacement comes while it is disabled
(`Situation.asks_of_late`), and `Situation.asks_listsAgain` shows one that does.
-/

set_option autoImplicit false

namespace ServiceBus.Directory

open Status (Reaches)

/-- When an event took place, if it tells. -/
def Event.timestamp? : Event → Option Instant
  | .started b => b.descriptor.timestamp
  | .stopped b => b.timestamp
  | .decommissioned _ => none
  | .subscriptionsUpdated b => b.descriptor.timestamp
  | .subscriptionsAdded b => b.timestamp
  | .subscriptionsRemoved b => b.timestamp
  | .subscriptionsForTypesUpdated b => b.timestamp
  | .notResponding _ => none
  | .responding b => b.timestamp

/-- The status of a subscription of a peer, if it was ever announced and is not forgotten. -/
def Registry.status? (r : Registry) (id : PeerId) (s : Subscription) : Option Status :=
  (r.interests? id).bind fun i ↦ i.statuses.find? s

theorem Registry.asks_eq_any_status? (r : Registry) (id : PeerId) (s : Subscription) :
    r.asks id s = (r.status? id s).any Status.enabled := by
  rw [asks_eq_any_interests?, status?]
  cases r.interests? id <;> rfl

namespace Deed

/-- As of when a deed announces what it announces. -/
def timestamp? : Deed → Option Instant
  | restart self => self.timestamp
  | learn d => d.timestamp
  | apply e => e.timestamp?
  | replace _ _ timestamp => timestamp

/-- A deed of a kind that has a time tells it. -/
def Dated : Deed → Prop
  | apply (.decommissioned _) => True
  | apply (.notResponding _) => True
  | deed => deed.timestamp?.isSome

/-- A descriptor is taken in, given what is known of its peer. -/
def takes (m? : Option Member) (d : Descriptor Peer) : Bool :=
  !m?.any fun m ↦ Instant.isStale m.timestamp d.timestamp

/-- The whole set of subscriptions of the subject is replaced, given what is known of it. -/
def replaces (m? : Option Member) : Deed → Bool
  | restart _ => true
  | learn d => takes m? d
  | apply (.started b) => takes m? b.descriptor
  | apply (.subscriptionsUpdated b) => takes m? b.descriptor
  | replace .. => true
  | _ => false

/-- What a deed leaves of a status of its subject before it announces anything, given what is known
of the subject: a replacement forgets what was given up. -/
def leaves (m? : Option Member) (s : Subscription) (deed : Deed) : Option Status :=
  if deed.replaces m? && !m?.any (fun m ↦ m.interests.isEnabled s) then none
  else m?.bind fun m ↦ m.interests.statuses.find? s

/-- The peer stays known without being registered anew, and the subscription is not among those
that were given up and are forgotten. -/
def Spares (r : Registry) (id : PeerId) (s : Subscription) (deed : Deed) : Prop :=
  deed.forgets = false ∧ ¬ deed.Drops id ∧
    (deed.subject = id → deed.replaces (r.members.find? id) → r.asks id s)

/-- The subscription is enabled or disabled, or something is known of it for the first time. -/
def Decides (r : Registry) (id : PeerId) (s : Subscription) (deed : Deed) : Prop :=
  (deed.perform r).asks id s ≠ r.asks id s ∨
    r.status? id s = none ∧ (deed.perform r).status? id s ≠ none

/-! ## From one status to the next -/

theorem reaches_learned (m? : Option Member) (d : Descriptor Peer) (s : Subscription) :
    Reaches d.timestamp (leaves m? s (learn d)) ((learnedInterests m? d).statuses.find? s) := by
  cases m? with
  | none => exact Interests.reaches_replace .empty d.subscriptions d.timestamp s
  | some m =>
    rw [learnedInterests, leaves, replaces, takes, Option.any_some, Option.any_some]
    cases hstale : Instant.isStale m.timestamp d.timestamp with
    | true => exact .refl _
    | false =>
      have hreplace := m.interests.reaches_replace d.subscriptions d.timestamp s
      cases henabled : m.interests.isEnabled s <;> simpa [henabled] using hreplace

theorem reaches_interestsAfter (m? : Option Member) {deed : Deed} (hforgets : deed.forgets = false)
    (hdrops : ¬ deed.Drops deed.subject) (s : Subscription) :
    Reaches deed.timestamp? (leaves m? s deed)
      ((deed.interestsAfter m?).bind fun i ↦ i.statuses.find? s) := by
  cases deed with
  | restart self => cases hforgets
  | learn d => exact reaches_learned m? d s
  | replace id ss timestamp =>
    cases m? with
    | none => exact .refl none
    | some m =>
      have hreplace := m.interests.reaches_replace ss timestamp s
      cases henabled : m.interests.isEnabled s <;>
        simpa [leaves, replaces, interestsAfter, timestamp?, henabled] using hreplace
  | apply e =>
    cases e with
    | started b => exact reaches_learned m? b.descriptor s
    | subscriptionsUpdated b => exact reaches_learned m? b.descriptor s
    | decommissioned b => exact absurd rfl hdrops
    | subscriptionsAdded b =>
      cases m? with
      | none => exact .refl none
      | some m => exact Interests.reaches_setAll true b.timestamp m.interests b.subscriptions s
    | subscriptionsRemoved b =>
      cases m? with
      | none => exact .refl none
      | some m => exact Interests.reaches_setAll false b.timestamp m.interests b.subscriptions s
    | subscriptionsForTypesUpdated b =>
      cases m? with
      | none => exact .refl none
      | some m => exact Interests.reaches_replaceTypes b.timestamp m.interests b.interests s
    | stopped b => cases m? <;> exact .refl _
    | notResponding b => cases m? <;> exact .refl _
    | responding b => cases m? <;> exact .refl _

/-- What is left of a status says the same about the flag. -/
theorem any_enabled_leaves (m? : Option Member) (s : Subscription) (deed : Deed) :
    (leaves m? s deed).any Status.enabled = m?.any fun m ↦ m.interests.isEnabled s := by
  cases m? with
  | none => cases hreplaces : deed.replaces none <;> simp [leaves, hreplaces]
  | some m =>
    have henabled : (m.interests.statuses.find? s).any Status.enabled = m.interests.isEnabled s :=
      rfl
    rw [leaves, Option.any_some, Option.bind_some]
    cases h : m.interests.isEnabled s with
    | true => simp [henabled, h]
    | false => cases deed.replaces (some m) <;> simp [henabled, h]

end Deed

namespace Registry

/-- What a deed leaves of the status of a subscription of a peer before it announces anything. -/
def leftStatus (r : Registry) (id : PeerId) (s : Subscription) (deed : Deed) : Option Status :=
  if id = deed.subject then deed.leaves (r.members.find? id) s else r.status? id s

theorem status?_eq_bind (r : Registry) (id : PeerId) (s : Subscription) :
    r.status? id s = (r.members.find? id).bind fun m ↦ m.interests.statuses.find? s := by
  rw [status?, interests?]
  cases r.members.find? id <;> rfl

theorem any_enabled_leftStatus (r : Registry) (id : PeerId) (s : Subscription) (deed : Deed) :
    (r.leftStatus id s deed).any Status.enabled = r.asks id s := by
  rw [leftStatus]
  split
  · exact Deed.any_enabled_leaves ..
  · exact (r.asks_eq_any_status? id s).symm

theorem leftStatus_of_none {r : Registry} {id : PeerId} {s : Subscription}
    (h : r.status? id s = none) (deed : Deed) : r.leftStatus id s deed = none := by
  rw [leftStatus, Deed.leaves, ← status?_eq_bind, h]
  split
  · split <;> rfl
  · rfl

/-- What is spared is left as it is. -/
theorem leftStatus_of_spares {r : Registry} {id : PeerId} {s : Subscription} {deed : Deed}
    (h : deed.Spares r id s) : r.leftStatus id s deed = r.status? id s := by
  obtain ⟨-, -, hasks⟩ := h
  rw [leftStatus, Deed.leaves, ← status?_eq_bind]
  split
  · next hid =>
    refine if_neg fun hcond ↦ ?_
    rw [Bool.and_eq_true, Bool.not_eq_true'] at hcond
    have hask : (r.members.find? id).any (fun m ↦ m.interests.isEnabled s) = true :=
      hasks hid.symm hcond.1
    rw [hask] at hcond
    cases hcond.2
  · rfl

namespace Follows

variable {r : Registry} {l : Chronicle} {id : PeerId} {s : Subscription}

/-- **A deed announces as of its own time**, after it has forgotten what it forgets. -/
theorem reaches_perform (h : r.Follows l) {deed : Deed} (hforgets : deed.forgets = false)
    (hdrops : ¬ deed.Drops id) (s : Subscription) :
    Reaches deed.timestamp? (r.leftStatus id s deed) ((deed.perform r).status? id s) := by
  rw [status?, h.interests?_perform, leftStatus]
  split
  · next hid =>
    subst hid
    exact Deed.reaches_interestsAfter _ hforgets hdrops s
  · rw [hforgets]
    exact .refl _

/-- A deed that has no time to tell announces nothing. -/
theorem status?_perform_of_dated (h : r.Follows l) {deed : Deed} (hdated : deed.Dated)
    (hspares : deed.Spares r id s) :
    (∃ t, deed.timestamp? = some t ∧
      Reaches (some t) (r.status? id s) ((deed.perform r).status? id s)) ∨
    (deed.perform r).status? id s = r.status? id s := by
  have hreaches := h.reaches_perform hspares.1 hspares.2.1 s
  rw [leftStatus_of_spares hspares] at hreaches
  cases htime : deed.timestamp? with
  | some t => exact Or.inl ⟨t, rfl, htime ▸ hreaches⟩
  | none =>
    refine Or.inr ?_
    rw [status?, h.interests?_perform, hspares.1]
    unfold Deed.Dated at hdated
    split at hdated
    · next b =>
      have hid : id ≠ (Deed.apply (.decommissioned b)).subject := fun hid ↦ hspares.2.1 hid.symm
      rw [if_neg hid]
      rfl
    · next b =>
      split
      · next hid => rw [hid]; rfl
      · rfl
    · rw [htime] at hdated
      cases hdated

end Follows

end Registry

/-! ## What is known since some time -/

/-- The status is not older than a time. -/
def Status.Since (time : Instant) (known : Option Status) : Prop :=
  ∃ status t, known = some status ∧ status.timestamp = some t ∧ time ≤ t

namespace Status.Since

variable {time t : Instant} {known known' : Option Status}

theorem of_reaches (h : Since time known) (hreaches : Reaches (some t) known known') :
    Since time known' := by
  obtain ⟨status, u, rfl, hu, hle⟩ := h
  by_cases hstale : Instant.isStale status.timestamp (some t)
  · exact ⟨status, u, hreaches.eq_of_stale hstale, hu, hle⟩
  · obtain hsame | ⟨enabled, hnew⟩ := hreaches.eq_or_eq_some
    · exact ⟨status, u, hsame, hu, hle⟩
    · refine ⟨⟨enabled, some t⟩, t, hnew, rfl, ?_⟩
      -- what is not stale is at least as new as the status
      rw [hu] at hstale
      have hnot : ¬ t < u := by simpa [Instant.isStale] using hstale
      rw [Instant.lt_iff_rank] at hnot
      rw [Instant.le_iff_rank] at hle ⊢
      omega

theorem eq_of_reaches (h : Since time known) (hreaches : Reaches (some t) known known')
    (hlate : t < time) : known' = known := by
  obtain ⟨status, u, rfl, hu, hle⟩ := h
  refine hreaches.eq_of_stale ?_
  have hlt : t < u := by
    rw [Instant.lt_iff_rank] at hlate ⊢
    rw [Instant.le_iff_rank] at hle
    omega
  rw [hu]
  simpa [Instant.isStale] using hlt

end Status.Since

namespace Registry.Follows

open Status (Since)

variable {r : Registry} {l : Chronicle} {id : PeerId} {s : Subscription} {time : Instant}

/-- What an event decides is known as of the time of the event. -/
theorem since_of_decides (h : r.Follows l) {e : Event} (htime : e.timestamp? = some time)
    (hdecides : (Deed.apply e).Decides r id s) :
    Since time (((Deed.apply e).perform r).status? id s) := by
  have hdrops : ¬ (Deed.apply e).Drops id := by
    cases e with
    | decommissioned b => cases htime
    | _ => exact not_false
  have hforgets : (Deed.apply e).forgets = false := rfl
  have hreaches := h.reaches_perform hforgets hdrops s
  rw [show (Deed.apply e).timestamp? = some time from htime] at hreaches
  obtain hsame | ⟨enabled, hnew⟩ := hreaches.eq_or_eq_some
  · -- nothing was announced that was taken, so nothing was decided
    obtain hasks | ⟨hnone, hsome⟩ := hdecides
    · rw [asks_eq_any_status?, hsame, any_enabled_leftStatus] at hasks
      exact absurd rfl hasks
    · rw [hsame, leftStatus_of_none hnone] at hsome
      exact absurd rfl hsome
  · exact ⟨⟨enabled, some time⟩, time, hnew, rfl, Int.le_refl _⟩

theorem since_perform (h : r.Follows l) {deed : Deed} (hdated : deed.Dated)
    (hspares : deed.Spares r id s) (hsince : Since time (r.status? id s)) :
    Since time ((deed.perform r).status? id s) := by
  obtain ⟨t, -, hreaches⟩ | hsame := h.status?_perform_of_dated hdated hspares
  · exact hsince.of_reaches hreaches
  · rwa [hsame]

/-- A late event changes nothing. -/
theorem asks_perform_of_late (h : r.Follows l) {e : Event} {t : Instant}
    (htime : e.timestamp? = some t) (hlate : t < time) (hspares : (Deed.apply e).Spares r id s)
    (hsince : Since time (r.status? id s)) :
    ((Deed.apply e).perform r).asks id s = r.asks id s := by
  have hreaches := h.reaches_perform hspares.1 hspares.2.1 s
  rw [leftStatus_of_spares hspares, show (Deed.apply e).timestamp? = some t from htime] at hreaches
  rw [asks_eq_any_status?, asks_eq_any_status?, hsince.eq_of_reaches hreaches hlate]

end Registry.Follows

namespace Situation

/-! ## Runs -/

/-- The registry after the first so many deeds of a run. -/
def registryAt (s : Situation) (acts : List Act) (n : Nat) : Registry :=
  Deed.performAll s.client.registry ((s.deedsOfRun acts).take n)

theorem registryAt_succ {s : Situation} {acts : List Act} {n : Nat} {deed : Deed}
    (h : (s.deedsOfRun acts)[n]? = some deed) :
    s.registryAt acts (n + 1) = deed.perform (s.registryAt acts n) := by
  rw [registryAt, List.take_add_one, h, Deed.performAll_append]
  rfl

/-- After all deeds the registry is that of the client after the run. -/
theorem registryAt_length (s : Situation) (acts : List Act) :
    s.registryAt acts (s.deedsOfRun acts).length = (s.run acts).client.registry := by
  rw [registryAt, List.take_length, registry_run]

theorem follows_registryAt (settings : Settings) (clock : Clock) (roster : Roster)
    (acts : List Act) (n : Nat) :
    ((start settings clock roster).registryAt acts n).Follows
      (Deed.recordAll (start settings clock roster).client.registry .empty
        (((start settings clock roster).deedsOfRun acts).take n)) :=
  (Registry.Follows.nobody roster).performAll _

/-- **A late event does not undo what a newer one decided.**  In a run of a client, let one event
decide a subscription of a peer, and let an event that is older be applied later.  It does not
change whether the peer asks for the subscription, provided that from the one event to the other

* every deed of a kind that has a time tells it;
* the peer stays known, and no registration begins;
* the subscriptions of the peer are not replaced while the one subscription is disabled, be it by
  the late event or by a deed before it. -/
theorem asks_of_late (settings : Settings) (clock : Clock) (roster : Roster) (acts : List Act)
    {i j : Nat} {e e' : Event} {time time' : Instant} {id : PeerId} {s : Subscription}
    (he : ((start settings clock roster).deedsOfRun acts)[i]? = some (.apply e))
    (he' : ((start settings clock roster).deedsOfRun acts)[j]? = some (.apply e'))
    (hij : i < j) (htime : e.timestamp? = some time) (htime' : e'.timestamp? = some time')
    (hlate : time' < time)
    (hdecides : (Deed.apply e).Decides ((start settings clock roster).registryAt acts i) id s)
    (hbetween : ∀ n deed, i < n → n ≤ j →
      ((start settings clock roster).deedsOfRun acts)[n]? = some deed →
      deed.Dated ∧ deed.Spares ((start settings clock roster).registryAt acts n) id s) :
    ((start settings clock roster).registryAt acts (j + 1)).asks id s =
      ((start settings clock roster).registryAt acts j).asks id s := by
  have hfollows := follows_registryAt settings clock roster acts
  have hsince : ∀ n, i < n → n ≤ j →
      Status.Since time (((start settings clock roster).registryAt acts n).status? id s) := by
    intro n
    induction n with
    | zero => intro hi; omega
    | succ n ih =>
      intro hi hj
      by_cases hn : i = n
      · subst hn
        rw [registryAt_succ he]
        exact (hfollows i).since_of_decides htime hdecides
      · have hlength : j < ((start settings clock roster).deedsOfRun acts).length :=
          (List.getElem?_eq_some_iff.mp he').1
        have hdeed := List.getElem?_eq_getElem (l := (start settings clock roster).deedsOfRun acts)
          (show n < _ by omega)
        obtain ⟨hdated, hspares⟩ := hbetween n _ (by omega) (by omega) hdeed
        rw [registryAt_succ hdeed]
        exact (hfollows n).since_perform hdated hspares (ih (by omega) (by omega))
  rw [registryAt_succ he']
  exact (hfollows j).asks_perform_of_late htime' hlate
    (hbetween j _ hij (Nat.le_refl j) he').2 (hsince j hij (Nat.le_refl j))

/-! ## A peer that is told of anew -/

/-- So many seconds after noon on that day in March, counted within the minute. -/
def afterNoon (seconds : Nat) : Instant :=
  ⟨⟨2024, 3, 1⟩, 12, 0, seconds % 60, 0, by decide, by decide, by decide, by omega, by decide⟩

/-- A descriptor of a peer. -/
def told (subscriptions : List Subscription) (seconds : Nat) : Descriptor Peer where
  peer := .live ⟨"Abc.P.0"⟩ "tcp://Abc.P.0:1"
  subscriptions := subscriptions
  timestamp := some (afterNoon seconds)

/-- The peer starts at noon without subscriptions. -/
def startsBare : Act := .event (.started ⟨told [] 0⟩)

/-- The peer subscribes ten seconds after it has started without subscriptions, and then a list of
its subscriptions comes in that is five seconds old. -/
def subscribesFirst : List Act :=
  [startsBare,
    .event (.subscriptionsAdded ⟨⟨"Abc.P.0"⟩, [.toAll fakeEvent], some (afterNoon 10)⟩),
    .event (.subscriptionsUpdated ⟨told [] 5⟩)]

/-- The list does not take the subscription away. -/
theorem asks_subscribesFirst :
    (inMarch.registryAt subscribesFirst 3).asks ⟨"Abc.P.0"⟩ (.toAll fakeEvent) =
      (inMarch.registryAt subscribesFirst 2).asks ⟨"Abc.P.0"⟩ (.toAll fakeEvent) := by
  refine asks_of_late {} ⟨⟨⟨2024, 3, 1⟩, 12, 0, 0, 0, by decide⟩, []⟩ {} subscribesFirst
    (i := 1) (j := 2) rfl rfl (by decide) rfl rfl (by decide) (Or.inl (by decide)) ?_
  intro n deed hi hj hdeed
  obtain rfl : n = 2 := by omega
  obtain rfl := Option.some.inj hdeed
  exact ⟨rfl, rfl, not_false, fun _ _ ↦ by decide⟩

/-- The peer starts at noon with a subscription, gives it up ten seconds later, and then a list of
its subscriptions comes in that is five seconds old and has the subscription. -/
def listsAgain : List Act :=
  [.event (.started ⟨told [.toAll fakeEvent] 0⟩),
    .event (.subscriptionsRemoved ⟨⟨"Abc.P.0"⟩, [.toAll fakeEvent], some (afterNoon 10)⟩),
    .event (.subscriptionsUpdated ⟨told [.toAll fakeEvent] 5⟩)]

/-- **A late event can undo what a newer one decided.**  The removal disables the subscription, and
the older list enables it again, for the removal is forgotten before the list is read. -/
theorem asks_listsAgain :
    (inMarch.deedsOfRun listsAgain)[1]? =
      some (.apply (.subscriptionsRemoved
        ⟨⟨"Abc.P.0"⟩, [.toAll fakeEvent], some (afterNoon 10)⟩)) ∧
    (inMarch.deedsOfRun listsAgain)[2]? =
      some (.apply (.subscriptionsUpdated ⟨told [.toAll fakeEvent] 5⟩)) ∧
    afterNoon 5 < afterNoon 10 ∧
    (inMarch.registryAt listsAgain 1).asks ⟨"Abc.P.0"⟩ (.toAll fakeEvent) = true ∧
    (inMarch.registryAt listsAgain 2).asks ⟨"Abc.P.0"⟩ (.toAll fakeEvent) = false ∧
    (inMarch.registryAt listsAgain 3).asks ⟨"Abc.P.0"⟩ (.toAll fakeEvent) = true :=
  ⟨rfl, rfl, by decide, by decide, by decide, by decide⟩

end Situation

end ServiceBus.Directory
