import Mathlib.Data.List.Nodup
import ServiceBus.Proofs.Directory.Answers
import ServiceBus.Proofs.Directory.Convergence
import ServiceBus.Proofs.Directory.Holding

/-!
# Descriptors that come in any order

A *presentation* of a peer is an event that brings a full descriptor of it, as of a known time: that
the peer has started, or that it has other subscriptions now.  Presentations are compared as wholes.
One that is older than what is known of the peer is passed over, and any other replaces all the
subscriptions, so that in the end the newest one prevails, in whatever order they come.

What carries the induction is that no status of the peer is newer than the peer itself
(`Registry.Shown.fresh`): so whatever a presentation does not list is taken away when the
presentation is taken in.
-/

set_option autoImplicit false

namespace ServiceBus.Directory

/-- An event that brings a full descriptor of a peer. -/
structure Presentation where
  /-- The peer has started; otherwise only its subscriptions are other ones now. -/
  starts : Bool
  /-- The state of the peer. -/
  contact : Contact
  /-- What it asks for. -/
  subscriptions : List Subscription
  /-- Messages are kept for it while it is away. -/
  persistent : Bool
  /-- A debugger is attached to it. -/
  debugged : Bool
  /-- Since when all this holds. -/
  time : Instant

namespace Presentation

/-- The descriptor that it brings. -/
def descriptor (id : PeerId) (u : Presentation) : Descriptor Peer where
  peer := ⟨id, u.contact⟩
  subscriptions := u.subscriptions
  persistent := u.persistent
  timestamp := some u.time
  debugged := u.debugged

/-- The event that brings it. -/
def event (id : PeerId) (u : Presentation) : Event :=
  if u.starts then .started ⟨u.descriptor id⟩ else .subscriptionsUpdated ⟨u.descriptor id⟩

theorem apply_event (r : Registry) (id : PeerId) (u : Presentation) :
    (r.apply (u.event id)).1 = (r.learn (u.descriptor id) u.starts).1 := by
  rw [event]
  cases u.starts <;> rfl

end Presentation

namespace Interests

variable {i : Interests} {time : Instant}

/-- Nothing that is known is newer than a time. -/
def UpTo (i : Interests) (time : Instant) : Prop :=
  ∀ s status, i.statuses.find? s = some status → ∃ t, status.timestamp = some t ∧ t ≤ time

theorem upTo_empty (time : Instant) : empty.UpTo time := fun _ _ h ↦ by cases h

theorem UpTo.isNewer (h : i.UpTo time) (s : Subscription) : i.isNewer s (some time) = false := by
  rw [Interests.isNewer]
  cases hfind : i.statuses.find? s with
  | none => rfl
  | some status =>
    obtain ⟨t, htime, hle⟩ := h s status hfind
    rw [Option.any_some, htime]
    rw [Instant.le_iff_rank] at hle
    simpa [Instant.isStale, Instant.lt_iff_rank] using hle

theorem UpTo.mono (h : i.UpTo time) {time' : Instant} (hle : time ≤ time') : i.UpTo time' := by
  intro s status hfind
  obtain ⟨t, htime, ht⟩ := h s status hfind
  rw [Instant.le_iff_rank] at hle ht
  exact ⟨t, htime, ht.trans hle⟩

/-- A replacement tells of nothing that is newer than itself. -/
theorem UpTo.replace (h : i.UpTo time) (ss : List Subscription) :
    (i.replace ss (some time)).1.UpTo time := by
  intro s status hfind
  have hreaches := i.reaches_replace ss (some time) s
  rw [hfind] at hreaches
  obtain hsame | ⟨enabled, hnew⟩ := hreaches.eq_or_eq_some
  · split at hsame
    · exact h s status hsame.symm
    · cases hsame
  · obtain rfl := Option.some.inj hnew
    exact ⟨time, rfl, Int.le_refl _⟩

/-- Where nothing is newer, a replacement leaves just what it lists. -/
theorem UpTo.isEnabled_replace (h : i.UpTo time) (ss : List Subscription) (s : Subscription) :
    (i.replace ss (some time)).1.isEnabled s = decide (s ∈ ss) := by
  rw [Interests.isEnabled_replace, h.isNewer, Bool.and_false, Bool.or_false]

end Interests

namespace Registry

/-- A registry has been shown a peer by presentations, of which one is the newest, and knows it as a
member. -/
structure Shown (r : Registry) (id : PeerId) (us : List Presentation) (newest : Presentation)
    (m : Member) : Prop where
  /-- The peer is known as the member. -/
  known : r.members.find? id = some m
  /-- The member has the id of the peer. -/
  own : m.peer.id = id
  /-- The instance of the member has a state. -/
  valid : r.roster.Valid m.peer
  /-- The newest presentation is one of them. -/
  mem : newest ∈ us
  /-- None is newer. -/
  le : ∀ u ∈ us, u.time ≤ newest.time
  /-- The member is as old as the newest presentation. -/
  timestamp : m.timestamp = some newest.time
  /-- The member asks for what the newest presentation lists. -/
  asks : ∀ s, m.interests.isEnabled s = decide (s ∈ newest.subscriptions)
  /-- No status is newer than the member. -/
  fresh : m.interests.UpTo newest.time
  /-- A start refreshes all else. -/
  refreshed : (∀ u ∈ us, u.starts = true) → r.roster.contact m.peer = newest.contact ∧
    m.persistent = newest.persistent ∧ m.debugged = newest.debugged

theorem exists_shown_of_unknown {r : Registry} {id : PeerId} (h : r.members.find? id = none)
    (u : Presentation) : ∃ m, (r.apply (u.event id)).1.Shown id [u] u m := by
  have hnone : r.members.find? (u.descriptor id).peer.id = none := h
  rw [u.apply_event, learn_of_unknown hnone]
  have hempty := Interests.upTo_empty u.time
  refine ⟨⟨(r.roster.add (u.descriptor id).peer).1, u.persistent, some u.time, u.debugged,
    (Interests.empty.replace u.subscriptions (some u.time)).1⟩, ?_⟩
  exact {
    known := (find?_put ..).trans (if_pos rfl)
    own := rfl
    valid := Roster.valid_add _ _
    mem := List.mem_singleton_self u
    le := fun u' hu' ↦ by
      obtain rfl := List.mem_singleton.mp hu'
      exact Int.le_refl _
    timestamp := rfl
    asks := hempty.isEnabled_replace u.subscriptions
    fresh := hempty.replace u.subscriptions
    refreshed := fun _ ↦ ⟨Roster.contact_add _ _, rfl, rfl⟩ }

namespace Shown

variable {r : Registry} {id : PeerId} {us : List Presentation} {newest : Presentation}
  {m : Member}

/-- An older presentation is passed over. -/
theorem passed (h : r.Shown id us newest m) {u : Presentation} (hlate : u.time < newest.time) :
    (r.apply (u.event id)).1.Shown id (us ++ [u]) newest m := by
  have hknown : r.members.find? (u.descriptor id).peer.id = some m := h.known
  have hstale : Instant.isStale m.timestamp (some u.time) = true := by
    rw [h.timestamp]
    simpa [Instant.isStale] using hlate
  rw [u.apply_event, learn_of_stale hknown hstale]
  exact { h with
    mem := List.mem_append_left _ h.mem
    le := fun u' hu' ↦ by
      obtain hu' | hu' := List.mem_append.mp hu'
      · exact h.le u' hu'
      · obtain rfl := List.mem_singleton.mp hu'
        exact Int.le_of_lt hlate
    refreshed := fun hall ↦ h.refreshed fun u' hu' ↦ hall u' (List.mem_append_left _ hu') }

/-- A presentation that is not older is taken in. -/
theorem taken (h : r.Shown id us newest m) {u : Presentation} (hle : newest.time ≤ u.time) :
    ∃ m', (r.apply (u.event id)).1.Shown id (us ++ [u]) u m' := by
  have hknown : r.members.find? (u.descriptor id).peer.id = some m := h.known
  have hfresh := h.fresh.mono hle
  have hstale : Instant.isStale m.timestamp (some u.time) = false := by
    rw [h.timestamp]
    rw [Instant.le_iff_rank] at hle
    simpa [Instant.isStale, Instant.lt_iff_rank] using hle
  rw [u.apply_event, learn_of_known hknown hstale]
  refine ⟨{ m.refreshed (u.descriptor id) u.starts with
    interests := (m.interests.replace u.subscriptions (some u.time)).1 }, ?_⟩
  exact {
    known := (find?_put ..).trans (if_pos h.own.symm)
    own := h.own
    valid := by
      cases hstarts : u.starts
      · exact h.valid
      · exact Roster.valid_set h.valid _ _
    mem := List.mem_append_right _ (List.mem_singleton_self u)
    le := fun u' hu' ↦ by
      obtain hu' | hu' := List.mem_append.mp hu'
      · exact Int.le_trans (h.le u' hu') hle
      · obtain rfl := List.mem_singleton.mp hu'
        exact Int.le_refl _
    timestamp := rfl
    asks := hfresh.isEnabled_replace u.subscriptions
    fresh := hfresh.replace u.subscriptions
    refreshed := fun hall ↦ by
      rw [hall u (List.mem_append_right _ (List.mem_singleton_self u))]
      exact ⟨Roster.contact_set_self h.valid _, rfl, rfl⟩ }

theorem step (h : r.Shown id us newest m) (u : Presentation) :
    ∃ newest' m', (r.apply (u.event id)).1.Shown id (us ++ [u]) newest' m' := by
  by_cases hlate : u.time < newest.time
  · exact ⟨newest, m, h.passed hlate⟩
  · obtain ⟨m', hm'⟩ := h.taken (Int.not_lt.mp hlate)
    exact ⟨u, m', hm'⟩

theorem run (h : r.Shown id us newest m) (us' : List Presentation) :
    ∃ newest' m', (r.applyAll (us'.map (Presentation.event id))).1.Shown id (us ++ us') newest'
      m' := by
  induction us' generalizing r us newest m with
  | nil => exact ⟨newest, m, by rwa [List.append_nil]⟩
  | cons u us' ih =>
    obtain ⟨newest', m', h'⟩ := h.step u
    obtain ⟨newest'', m'', h''⟩ := ih h'
    rw [List.append_assoc] at h''
    exact ⟨newest'', m'', h''⟩

/-- What is told of the peer. -/
theorem told (h : r.Shown id us newest m) :
    ∃ d, r.told? id = some d ∧ d.timestamp = some newest.time ∧
      (∀ s, s ∈ d.subscriptions ↔ s ∈ newest.subscriptions) ∧
      ((∀ u ∈ us, u.starts = true) → d.peer = ⟨id, newest.contact⟩ ∧
        d.persistent = newest.persistent ∧ d.debugged = newest.debugged) := by
  refine ⟨_, told?_of_known h.known, h.timestamp, fun s ↦ ?_, fun hall ↦ ?_⟩
  · exact Interests.mem_enabled.trans (by rw [h.asks]; exact decide_eq_true_iff)
  · obtain ⟨hcontact, hpersistent, hdebugged⟩ := h.refreshed hall
    refine ⟨?_, hpersistent, hdebugged⟩
    show r.roster.peer m.peer = _
    rw [Roster.peer, h.own, hcontact]

end Shown

end Registry

namespace Situation

/-- Presentations of a peer come in. -/
def presentations (id : PeerId) (us : List Presentation) : List Act :=
  us.map fun u ↦ .event (u.event id)

theorem registry_run_presentations {s : Situation} (h : s.client.held = none) (id : PeerId)
    (us : List Presentation) :
    (s.run (presentations id us)).client.registry =
      (s.client.registry.applyAll (us.map (Presentation.event id))).1 := by
  have happlied := registry_run_events h (us.map (Presentation.event id))
  rw [List.map_map] at happlied
  exact happlied

/-- **The newest descriptor prevails.**  Take a client that is registered, a peer that it does not
know, and presentations of the peer whose times differ.  In whatever order they come, in the end the
peer is as old as the newest of them and lists what that one lists; and if all of them are starts,
the state of the peer and its two marks are those of the newest, too. -/
theorem told?_presentations (settings : Settings) (clock : Clock) (roster : Roster)
    (acts : List Act) (id : PeerId) (us : List Presentation)
    (hregistered : ((start settings clock roster).run acts).client.standing = .registered)
    (hunknown : ((start settings clock roster).run acts).client.registry.descriptor? id = none)
    (hne : us ≠ []) (hdistinct : (us.map Presentation.time).Nodup) :
    ∃ newest ∈ us, (∀ u ∈ us, u.time ≤ newest.time) ∧
      ∀ us', us'.Perm us → ∃ d,
        ((start settings clock roster).run
          (acts ++ presentations id us')).client.registry.told? id = some d ∧
        d.timestamp = some newest.time ∧ (∀ s, s ∈ d.subscriptions ↔ s ∈ newest.subscriptions) ∧
        ((∀ u ∈ us, u.starts = true) → d.peer = ⟨id, newest.contact⟩ ∧
          d.persistent = newest.persistent ∧ d.debugged = newest.debugged) := by
  have hunknown := Option.map_eq_none_iff.mp hunknown
  have hshown : ∀ us', us'.Perm us → ∃ newest m,
      ((start settings clock roster).run (acts ++ presentations id us')).client.registry.Shown id
        us' newest m := by
    intro us' hperm
    rw [run_append, registry_run_presentations (held_of_registered hregistered)]
    cases us' with
    | nil => exact absurd hperm.nil_eq.symm hne
    | cons u us' =>
      obtain ⟨m, hm⟩ := Registry.exists_shown_of_unknown hunknown u
      exact hm.run us'
  obtain ⟨newest, _, h⟩ := hshown us (.refl us)
  refine ⟨newest, h.mem, h.le, fun us' hperm ↦ ?_⟩
  obtain ⟨newest', _, h'⟩ := hshown us' hperm
  -- times that differ leave one newest
  have hsame : newest' = newest := by
    refine List.inj_on_of_nodup_map hdistinct (hperm.mem_iff.mp h'.mem) h.mem ?_
    have hle := Instant.le_iff_rank.mp (h.le newest' (hperm.mem_iff.mp h'.mem))
    have hle' := Instant.le_iff_rank.mp (h'.le newest (hperm.mem_iff.mpr h.mem))
    exact Instant.rank_injective (by omega)
  subst hsame
  obtain ⟨d, hd, htime, hlists, hrefreshed⟩ := h'.told
  exact ⟨d, hd, htime, hlists, fun hall ↦ hrefreshed fun u hu ↦ hall u (hperm.mem_iff.mp hu)⟩

/-! ## A peer that has started twice -/

/-- The peer starts at an end point, so many seconds after noon. -/
def startsAt (endPoint : String) (subscriptions : List Subscription) (seconds : Nat) :
    Presentation :=
  ⟨true, { endPoint }, subscriptions, false, false, afterNoon seconds⟩

/-- The newer of two starts comes first, and its end point stays. -/
theorem told?_startsTwice :
    ∃ d, (withServer.run (registers [] ++ presentations ⟨"Abc.P.0"⟩
        [startsAt "tcp://Abc.P.0:2" [.toAll fakeEvent] 20, startsAt "tcp://Abc.P.0:1" [] 10])
          ).client.registry.told? ⟨"Abc.P.0"⟩ = some d ∧
      d.peer.contact.endPoint = "tcp://Abc.P.0:2" ∧ .toAll fakeEvent ∈ d.subscriptions := by
  obtain ⟨newest, hmem, hle, hall⟩ := told?_presentations
    { directoryEndPoints := ["tcp://directory:1"] } ⟨⟨⟨2024, 3, 1⟩, 12, 0, 0, 0, by decide⟩, []⟩
    ⟨#[{ endPoint := "tcp://Abc.Self.0:1" }]⟩ (registers []) ⟨"Abc.P.0"⟩
    [startsAt "tcp://Abc.P.0:1" [] 10, startsAt "tcp://Abc.P.0:2" [.toAll fakeEvent] 20]
    rfl rfl (List.cons_ne_nil _ _) (by decide)
  obtain rfl : newest = startsAt "tcp://Abc.P.0:2" [.toAll fakeEvent] 20 := by
    obtain rfl | h := List.mem_cons.mp hmem
    · exact absurd (hle (startsAt "tcp://Abc.P.0:2" [.toAll fakeEvent] 20) (by simp)) (by decide)
    · exact List.mem_singleton.mp h
  obtain ⟨d, hd, -, hlists, hrefreshed⟩ := hall _ (.swap _ _ [])
  obtain ⟨hpeer, -⟩ := hrefreshed (by simp [startsAt])
  exact ⟨d, hd, by rw [hpeer]; rfl, (hlists _).mpr (by simp [startsAt])⟩

end Situation

end ServiceBus.Directory
