import ServiceBus.Proofs.Directory.Convergence
import ServiceBus.Proofs.Directory.Holding
import ServiceBus.Proofs.Directory.Remains
import ServiceBus.Proofs.Directory.TypeReplacements

/-!
# Events that come in twice

An event that comes in a second time, right after the first, says nothing new.  It should change
nothing, neither at once nor for any events after it.  So it is for most events; but one that brings
a full descriptor clears the remains of what was given up before, and when it comes in again, these
are the subscriptions that it took away itself.  Then the time is forgotten at which they were taken
away, and an older event that adds one of them is taken.

`Registry.Follows.akin_apply_twice` says that this is all: what the second event leaves is the same
but for the remains of what the first took away.  The echo of an update of the local peer is such a
second event, the update itself being the first (`Registry.Follows.akin_learn_again`).
-/

set_option autoImplicit false

namespace ServiceBus.Directory

/-- The full descriptor that an event brings. -/
def Event.descriptor? : Event → Option (Descriptor Peer)
  | .started b => some b.descriptor
  | .subscriptionsUpdated b => some b.descriptor
  | _ => none

/-- Such an event is taken in as the descriptor is. -/
theorem Event.exists_refresh {e : Event} {d : Descriptor Peer} (h : e.descriptor? = some d) :
    e.peer = d.peer.id ∧ e.timestamp? = d.timestamp ∧
      ∃ refresh, ∀ r : Registry, (r.apply e).1 = (r.learn d refresh).1 := by
  cases e with
  | started b =>
    obtain rfl := Option.some.inj h
    exact ⟨rfl, rfl, true, fun _ ↦ rfl⟩
  | subscriptionsUpdated b =>
    obtain rfl := Option.some.inj h
    exact ⟨rfl, rfl, false, fun _ ↦ rfl⟩
  | _ => cases h

/-! ## Registries -/

/-- Of the events to come, none that adds the subscription is older than a time, nor than one before
it that removes the subscription. -/
def Event.OnTime (id : PeerId) (s : Subscription) (timestamp : Option Instant) (es : List Event) :
    Prop :=
  (∀ e ∈ es, e.Adds id s → Instant.isStale timestamp e.timestamp? = false) ∧ InTurn id s es

/-- Some increments tell a subscription that was given up from one of which nothing is known. -/
theorem Increment.exists_actAll_ne (s : Subscription) (timestamp : Option Instant) :
    ∃ us, (actAll s (some ⟨false, timestamp⟩) us).any Status.enabled ≠
      (actAll s none us).any Status.enabled := by
  by_cases hold : Instant.isStale timestamp (some (Situation.afterNoon 0))
  · -- the older increment adds the subscription
    refine ⟨[⟨true, [s], Situation.afterNoon 0⟩], ?_⟩
    simp [actAll, act, Status.announced, hold]
  · -- a removal comes before, which is passed over where the time is known
    have hnewer : Instant.isStale (some (Situation.afterNoon 1))
        (some (Situation.afterNoon 0)) = true := by
      decide
    refine ⟨[⟨false, [s], Situation.afterNoon 1⟩, ⟨true, [s], Situation.afterNoon 0⟩], ?_⟩
    simp [actAll, act, Status.announced, hold, hnewer]

namespace Registry

/-- A peer does not ask for a subscription any more. -/
def Loses (r r' : Registry) (id : PeerId) (s : Subscription) : Prop :=
  r.asks id s = true ∧ r'.asks id s = false

/-- The echo makes a peer known that was not. -/
theorem not_answersLike_echo_of_unknown {r : Registry} {d : Descriptor Peer}
    (hm : r.members.find? d.peer.id = none) :
    ¬ (r.replaceInterests d.peer.id d.subscriptions d.timestamp).AnswersLike
      ((r.replaceInterests d.peer.id d.subscriptions d.timestamp).learn d false).1 := by
  rw [replaceInterests_of_unknown hm]
  intro hlike
  have htold := hlike.told d.peer.id
  rw [told?_of_unknown hm, told?_of_known (find?_learn_of_unknown hm false)] at htold
  cases htold

namespace Follows

variable {lapsed : PeerId → Subscription → Option Status → Prop} {r r' : Registry} {l : Chronicle}

/-- What is the same is the same but for what has lapsed. -/
theorem akin_of_same (h : r.Follows l) (hroster : r'.roster = r.roster)
    (hmembers : ∀ id, r'.members.find? id = r.members.find? id) (hindex : r'.index = r.index) :
    Akin lapsed r r' where
  roster := hroster
  members id := by
    rw [hmembers]
    cases hm : r.members.find? id with
    | none => exact Or.inl ⟨rfl, rfl⟩
    | some m => exact Or.inr ⟨m, m.interests, rfl, rfl, h.own id m hm, .of_eq fun _ ↦ rfl⟩
  tidy := h.index.tidy
  tidy' := hindex ▸ h.index.tidy
  holdsId_iff s id := by rw [hindex]

theorem akin_refl (h : r.Follows l) : Akin lapsed r r := h.akin_of_same rfl (fun _ ↦ rfl) rfl

/-- A member that is put once more, with changes that say what is so already. -/
theorem akin_put (h : r.Follows l) {m : Member} (hm : r.members.find? m.peer.id = some m)
    {after : Interests × List Change}
    (hleft : Interests.SameBut (lapsed m.peer.id) m.interests after.1)
    (hchanges : ∀ s enabled, lastOf after.2 (fun s' ↦ s'.Alike s) = some enabled →
      (r.index.HoldsId s m.peer.id ↔ enabled = true)) :
    Akin lapsed r (r.put m after) where
  roster := rfl
  members id := by
    rw [find?_put]
    split
    · next hid =>
      subst hid
      exact Or.inr ⟨m, after.1, hm, rfl, rfl, hleft⟩
    · exact h.akin_refl.members id
  tidy := h.index.tidy
  tidy' := h.index.tidy.followAll m.peer after.2
  holdsId_iff s id := by
    refine Iff.trans ?_ (Index.holdsId_followAll h.index.tidy m.peer after.2 s id).symm
    split
    · next hid =>
      subst hid
      cases hlast : lastOf after.2 (fun s' ↦ s'.Alike s) with
      | none => rfl
      | some enabled => exact hchanges s enabled hlast
    · rfl

/-- A change of interests that says at the second time what it said at the first. -/
theorem akin_amendInterests_again (h : r.Follows l) (id : PeerId) (type : MessageType)
    {change : Interests → Interests × List Change}
    (hdescribes : ∀ i : Interests, i.Describes (change i).2 (change i).1)
    (hleft : ∀ (i : Interests) s,
      (change (change i).1).1.statuses.find? s = (change i).1.statuses.find? s)
    (hchanges : ∀ (i : Interests) s,
      lastOf (change (change i).1).2 (fun s' ↦ s'.Alike s) = none ∨
        lastOf (change (change i).1).2 (fun s' ↦ s'.Alike s) =
          lastOf (change i).2 (fun s' ↦ s'.Alike s)) :
    Akin lapsed (r.amendInterests id type change).1
      ((r.amendInterests id type change).1.amendInterests id type change).1 := by
  have honce := h.amendInterests id type hdescribes
  cases hm : r.members.find? id with
  | none =>
    have hsame : (r.amendInterests id type change).1 = r := by
      rw [Registry.amendInterests, amend, hm]
    rw [hsame, hsame]
    exact h.akin_refl
  | some m =>
    obtain rfl := h.own id m hm
    have hfirst : (r.amendInterests m.peer.id type change).1 = r.put m (change m.interests) := by
      rw [Registry.amendInterests, amend, hm]
    have hknown : (r.put m (change m.interests)).members.find? m.peer.id =
        some { m with interests := (change m.interests).1 } := (find?_put ..).trans (if_pos rfl)
    have hsecond :
        ((r.put m (change m.interests)).amendInterests m.peer.id type change).1 =
          (r.put m (change m.interests)).put { m with interests := (change m.interests).1 }
            (change (change m.interests).1) := by
      rw [Registry.amendInterests, amend, hknown]
    rw [hfirst] at honce ⊢
    rw [hsecond]
    refine honce.akin_put hknown (.of_eq fun s ↦ (hleft _ s).symm) fun s enabled hlast ↦ ?_
    obtain hnone | hsame := hchanges m.interests s
    · rw [hnone] at hlast
      cases hlast
    · rw [hsame] at hlast
      rw [honce.index.holdsId_iff, Chronicle.lastOf_note, if_pos rfl, hm, Option.elim_some, hlast]
      simp

theorem akin_setAll_twice (h : r.Follows l) (id : PeerId) (type : MessageType) (enabled : Bool)
    (timestamp : Option Instant) (ss : List Subscription) :
    let change (i : Interests) := i.setAll enabled timestamp ss
    Akin lapsed (r.amendInterests id type change).1
      ((r.amendInterests id type change).1.amendInterests id type change).1 := by
  refine h.akin_amendInterests_again id type (Interests.describes_setAll enabled timestamp · ss)
    (fun i s ↦ ?_) fun i s ↦ Or.inl ?_
  · rw [Interests.setAll_setAll]
  · rw [Interests.setAll_setAll]
    rfl

theorem akin_setResponding_twice (h : r.Follows l) (id : PeerId) (type : MessageType)
    (responding : Bool) :
    Akin lapsed (r.setResponding id type responding).1
      ((r.setResponding id type responding).1.setResponding id type responding).1 := by
  have honce := h.setResponding id type responding
  cases hm : r.members.find? id with
  | none =>
    have hsame : (r.setResponding id type responding).1 = r := by
      rw [Registry.setResponding, amend, hm]
    rw [hsame, hsame]
    exact h.akin_refl
  | some m =>
    have hfirst : (r.setResponding id type responding).1 =
        { r with roster := r.roster.modify m.peer fun c ↦ { c with responding } } := by
      rw [Registry.setResponding, amend, hm]
    rw [hfirst] at honce ⊢
    rw [Registry.setResponding, amend, hm]
    refine honce.akin_of_same ?_ (fun _ ↦ rfl) rfl
    exact Roster.modify_modify _ m.peer fun _ ↦ rfl

variable {lost : PeerId → Subscription → Prop} {es : List Event}

/-- **A descriptor that comes in once more** only clears the remains of what it took away.  Here the
member has its marks and its interests from the descriptor already. -/
theorem akin_learn_again (h : r.Follows l) {d : Descriptor Peer} {refresh : Bool} {m : Member}
    {i : Interests} (hm : r.members.find? d.peer.id = some m)
    (hinterests : m.interests = (i.replace d.subscriptions d.timestamp).1)
    (hmarks : m.refreshed d refresh = m)
    (hroster : (if refresh then r.roster.set m.peer d.peer.contact else r.roster) = r.roster)
    (hlost : ∀ s, i.isEnabled s = true → m.interests.isEnabled s = false →
      lost d.peer.id s ∧ ∀ e ∈ es, e.Adds d.peer.id s →
        Instant.isStale d.timestamp e.timestamp? = false) :
    Akin (Lapsed lost es) r (r.learn d refresh).1 := by
  have hown := h.own _ _ hm
  have hstale : Instant.isStale m.timestamp d.timestamp = false := by
    rw [← hmarks]
    exact Instant.isStale_self _
  rw [learn_of_known hm hstale, hmarks, hroster, hinterests, Interests.replace_replace]
  refine h.akin_put (by rw [hown, hm]) (fun s ↦ ?_) fun s enabled hlast ↦ by cases hlast
  rw [hinterests, Interests.find?_withoutRemains]
  split
  · exact Or.inl rfl
  · next hdisabled =>
    have hdisabled := Bool.eq_false_iff.mpr hdisabled
    rw [Interests.find?_replace_of_disabled hdisabled]
    cases hbefore : i.isEnabled s with
    | false => exact Or.inl rfl
    | true =>
      obtain ⟨hs, hlater⟩ := hlost s hbefore (hinterests ▸ hdisabled)
      rw [← hown] at hs hlater
      refine Or.inr ⟨⟨hs, fun status hstatus ↦ ?_⟩, hs, fun status hstatus ↦ by cases hstatus⟩
      obtain rfl := Option.some.inj hstatus
      exact ⟨rfl, hlater⟩

/-- The same descriptor comes in twice. -/
theorem akin_learn_twice (h : r.Follows l) {d : Descriptor Peer} {refresh : Bool}
    (hlost : ∀ s, r.Loses (r.learn d refresh).1 d.peer.id s →
      lost d.peer.id s ∧ ∀ e ∈ es, e.Adds d.peer.id s →
        Instant.isStale d.timestamp e.timestamp? = false) :
    Akin (Lapsed lost es) (r.learn d refresh).1 ((r.learn d refresh).1.learn d refresh).1 := by
  have honce := h.learn d refresh
  cases hm : r.members.find? d.peer.id with
  | none =>
    have hknown := find?_learn_of_unknown hm refresh
    rw [learn_of_unknown hm] at honce hknown ⊢
    refine honce.akin_learn_again hknown rfl ?_ ?_ fun s henabled ↦ ?_
    · cases refresh <;> rfl
    · cases refresh
      · rfl
      · exact Roster.set_add _ _
    · cases henabled
  | some m =>
    cases hstale : Instant.isStale m.timestamp d.timestamp with
    | true =>
      rw [learn_of_stale hm hstale, learn_of_stale hm hstale]
      exact h.akin_refl
    | false =>
      have hown := h.own _ _ hm
      have hknown := find?_learn_of_known hm hown hstale refresh
      rw [learn_of_known hm hstale] at honce hlost hknown ⊢
      refine honce.akin_learn_again hknown rfl ?_ ?_ fun s hbefore hafter ↦ hlost s ⟨?_, ?_⟩
      · cases refresh <;> rfl
      · cases refresh
        · rfl
        · exact Roster.set_set _ _ _
      · exact (asks_of_known hm s).trans hbefore
      · exact (asks_of_known hknown s).trans hafter

theorem akin_stop_twice (h : r.Follows l) (b : Stopped) :
    Akin lapsed (r.apply (.stopped b)).1 ((r.apply (.stopped b)).1.apply (.stopped b)).1 := by
  have honce := h.stop b
  cases hm : r.members.find? b.peer with
  | none =>
    have hsame : (r.apply (.stopped b)).1 = r := by rw [Registry.apply, amend, hm]
    rw [hsame, hsame]
    exact h.akin_refl
  | some m =>
    by_cases hstale : Instant.isStale m.timestamp b.timestamp
    · have hsame : (r.apply (.stopped b)).1 = r := by
        rw [Registry.apply, amend, hm]
        dsimp only
        rw [if_pos hstale]
      rw [hsame, hsame]
      exact h.akin_refl
    · have hstopped : ∀ (r' : Registry) (m' : Member), r'.members.find? b.peer = some m' →
          ¬ Instant.isStale m'.timestamp b.timestamp → (r'.apply (.stopped b)).1 =
            { r' with
              roster := r'.roster.modify m'.peer fun c ↦ { c with up := false, responding := false }
              members := r'.members.insert b.peer { m' with timestamp := b.timestamp } } := by
        intro r' m' hm' hstale'
        rw [Registry.apply, amend, hm']
        dsimp only
        rw [if_neg hstale']
      rw [hstopped r m hm hstale] at honce ⊢
      have hknown := (Table.find?_insert r.members b.peer b.peer
        { m with timestamp := b.timestamp }).trans (if_pos rfl)
      rw [hstopped _ _ hknown (by simp)]
      refine honce.akin_of_same (Roster.modify_modify _ m.peer fun _ ↦ rfl) (fun id ↦ ?_) rfl
      dsimp only
      rw [Table.find?_insert]
      split
      · next hid => rw [hid, hknown]
      · rfl

/-- **The same event comes in twice.**  What it leaves is the same but for what it took away. -/
theorem akin_apply_twice (h : r.Follows l) {e : Event}
    (hlost : ∀ s, e.descriptor?.isSome → r.Loses (r.apply e).1 e.peer s →
      lost e.peer s ∧ ∀ e' ∈ es, e'.Adds e.peer s →
        Instant.isStale e.timestamp? e'.timestamp? = false) :
    Akin (Lapsed lost es) (r.apply e).1 ((r.apply e).1.apply e).1 := by
  cases hd : e.descriptor? with
  | some d =>
    obtain ⟨hpeer, htime, refresh, hlearn⟩ := Event.exists_refresh hd
    rw [hlearn, hpeer, htime] at hlost
    rw [hlearn, hlearn]
    exact h.akin_learn_twice fun s ↦ hlost s (by rw [hd]; rfl)
  | none =>
  cases e with
  | started b => cases hd
  | subscriptionsUpdated b => cases hd
  | subscriptionsAdded b => exact h.akin_setAll_twice b.peer _ true b.timestamp b.subscriptions
  | subscriptionsRemoved b => exact h.akin_setAll_twice b.peer _ false b.timestamp b.subscriptions
  | subscriptionsForTypesUpdated b =>
    exact h.akin_amendInterests_again b.peer _ (Interests.describes_replaceTypes _ · _)
      (fun i s ↦ i.find?_replaceTypes_again b.timestamp b.interests s)
      fun i s ↦ i.lastOf_replaceTypes_again b.timestamp b.interests s
  | stopped b => exact h.akin_stop_twice b
  | decommissioned b =>
    have hunknown := (interests?_decommission r b b.peer).trans (if_pos rfl)
    have hsame : ((r.apply (.decommissioned b)).1.apply (.decommissioned b)).1 =
        (r.apply (.decommissioned b)).1 := by
      rw [Registry.apply, amend, interests?_eq_none_iff.mp hunknown]
    rw [hsame]
    exact (h.decommission b).akin_refl
  | notResponding b => exact h.akin_setResponding_twice b.peer _ false
  | responding b => exact h.akin_setResponding_twice b.peer _ true

/-! ## What is seen of it -/

/-- A remembered time is seen: some increments of the peer end differently where the time at which a
subscription was given up is known, and where nothing is known of the subscription. -/
theorem exists_not_answersLike (h : r.Follows l) {l' : Chronicle} (h' : r'.Follows l')
    {id : PeerId} {s : Subscription} {i i' : Interests} {timestamp : Option Instant}
    (hi : r.interests? id = some i) (hi' : r'.interests? id = some i')
    (hs : i.statuses.find? s = some ⟨false, timestamp⟩) (hs' : i'.statuses.find? s = none) :
    ∃ es, ¬ (r.applyAll es).1.AnswersLike (r'.applyAll es).1 := by
  obtain ⟨us, hus⟩ := Increment.exists_actAll_ne s timestamp
  refine ⟨us.map (Increment.event id), fun hlike ↦ hus ?_⟩
  have happlied : ∀ r : Registry, (r.applyAll (us.map (Increment.event id))).1 =
      r.increase id us := fun r ↦ by
    rw [← Deed.performAll_apply, List.map_map]
    rfl
  rw [happlied, happlied] at hlike
  obtain ⟨j, hj, hstatuses⟩ := h.interests?_increase hi us
  obtain ⟨j', hj', hstatuses'⟩ := h'.interests?_increase hi' us
  have hasks := hlike.asks_eq id s
  rw [asks_eq_any_interests?, asks_eq_any_interests?, hj, hj', Option.any_some, Option.any_some,
    Interests.isEnabled, Interests.isEnabled, hstatuses, hstatuses', hs, hs'] at hasks
  exact hasks

/-- What a descriptor took away is seen when it comes in once more. -/
theorem exists_not_answersLike_learn_again (h : r.Follows l) {d : Descriptor Peer}
    {refresh : Bool} {m : Member} {i : Interests} (hm : r.members.find? d.peer.id = some m)
    (hinterests : m.interests = (i.replace d.subscriptions d.timestamp).1)
    (htime : m.timestamp = d.timestamp) {s : Subscription} (hbefore : i.isEnabled s = true)
    (hafter : m.interests.isEnabled s = false) :
    ∃ es, ¬ (r.applyAll es).1.AnswersLike ((r.learn d refresh).1.applyAll es).1 := by
  have hstale : Instant.isStale m.timestamp d.timestamp = false := by
    rw [htime]
    exact Instant.isStale_self _
  have hagain : (r.learn d refresh).1.interests? d.peer.id = some m.interests.withoutRemains := by
    rw [interests?_of_known (find?_learn_of_known hm (h.own _ _ hm) hstale refresh), hinterests,
      Interests.replace_replace]
  have hnow : m.interests.statuses.find? s = some ⟨false, d.timestamp⟩ := by
    rw [hinterests] at hafter ⊢
    rw [Interests.find?_replace_of_disabled hafter, if_pos hbefore]
  have hnone : m.interests.withoutRemains.statuses.find? s = none := by
    rw [Interests.find?_withoutRemains, hafter]
    rfl
  exact h.exists_not_answersLike (h.learn d refresh) (interests?_of_known hm) hagain hnow hnone

/-- Under events of which none comes before its turn, the second time is not seen. -/
theorem answersLike_twice_of_onTime (h : r.Follows l) {e : Event}
    (hes : ∀ s, e.descriptor?.isSome → r.Loses (r.apply e).1 e.peer s →
      Event.OnTime e.peer s e.timestamp? es) :
    ((r.apply e).1.applyAll es).1.AnswersLike (((r.apply e).1.apply e).1.applyAll es).1 := by
  let lost (id : PeerId) (s : Subscription) : Prop :=
    id = e.peer ∧ e.descriptor?.isSome ∧ r.Loses (r.apply e).1 e.peer s
  have hakin : Akin (Lapsed lost es) (r.apply e).1 ((r.apply e).1.apply e).1 :=
    h.akin_apply_twice fun s hd hloses ↦ ⟨⟨rfl, hd, hloses⟩, (hes s hd hloses).1⟩
  have hall := hakin.applyAll fun id s ⟨hid, hd, hloses⟩ ↦ hid ▸ (hes s hd hloses).2
  exact hall.answersLike fun _ _ _ ↦ Lapsed.any_enabled

/-- An event that takes a subscription away is seen to come in twice. -/
theorem exists_not_answersLike_twice (h : r.Follows l) {e : Event} {s : Subscription}
    (hd : e.descriptor?.isSome) (hloses : r.Loses (r.apply e).1 e.peer s) :
    ∃ es, ¬ ((r.apply e).1.applyAll es).1.AnswersLike
      (((r.apply e).1.apply e).1.applyAll es).1 := by
  obtain ⟨d, hd⟩ := Option.isSome_iff_exists.mp hd
  obtain ⟨hpeer, -, refresh, hlearn⟩ := Event.exists_refresh hd
  rw [hlearn, hpeer] at hloses
  rw [hlearn, hlearn]
  cases hm : r.members.find? d.peer.id with
  | none =>
    rw [Loses, asks_of_unknown hm] at hloses
    cases hloses.1
  | some m =>
    cases hstale : Instant.isStale m.timestamp d.timestamp with
    | true =>
      rw [learn_of_stale hm hstale] at hloses
      cases hloses.1.symm.trans hloses.2
    | false =>
      have hknown := find?_learn_of_known hm (h.own _ _ hm) hstale refresh
      have honce := h.learn d refresh
      exact honce.exists_not_answersLike_learn_again hknown rfl rfl
        ((asks_of_known hm s).symm.trans hloses.1) ((asks_of_known hknown s).symm.trans hloses.2)

/-! ## The echo of an update -/

/-- Under events of which none comes before its turn, the echo of a replacement is not seen. -/
theorem answersLike_echo_of_onTime (h : r.Follows l) {d : Descriptor Peer} {m : Member}
    (hm : r.members.find? d.peer.id = some m)
    (hes : ∀ s, r.Loses (r.replaceInterests d.peer.id d.subscriptions d.timestamp) d.peer.id s →
      Event.OnTime d.peer.id s d.timestamp es) :
    ((r.replaceInterests d.peer.id d.subscriptions d.timestamp).applyAll es).1.AnswersLike
      (((r.replaceInterests d.peer.id d.subscriptions d.timestamp).learn d false).1.applyAll
        es).1 := by
  have hknown := find?_replaceInterests hm (h.own _ _ hm) d.subscriptions d.timestamp
  have honce := h.replaceInterests d.peer.id d.subscriptions d.timestamp
  generalize r.replaceInterests d.peer.id d.subscriptions d.timestamp = r' at *
  let lost (id : PeerId) (s : Subscription) : Prop := id = d.peer.id ∧ r.Loses r' d.peer.id s
  have hakin : Akin (Lapsed lost es) r' (r'.learn d false).1 := by
    refine honce.akin_learn_again hknown rfl rfl rfl fun s hbefore hafter ↦ ?_
    have hloses : r.Loses r' d.peer.id s :=
      ⟨(asks_of_known hm s).trans hbefore, (asks_of_known hknown s).trans hafter⟩
    exact ⟨⟨rfl, hloses⟩, (hes s hloses).1⟩
  have hall := hakin.applyAll fun id s ⟨hid, hloses⟩ ↦ hid ▸ (hes s hloses).2
  exact hall.answersLike fun _ _ _ ↦ Lapsed.any_enabled

/-- The echo of a replacement that took a subscription away is seen. -/
theorem exists_not_answersLike_echo (h : r.Follows l) {d : Descriptor Peer} {s : Subscription}
    (hloses : r.Loses (r.replaceInterests d.peer.id d.subscriptions d.timestamp) d.peer.id s) :
    ∃ es, ¬ ((r.replaceInterests d.peer.id d.subscriptions d.timestamp).applyAll es).1.AnswersLike
      (((r.replaceInterests d.peer.id d.subscriptions d.timestamp).learn d false).1.applyAll
        es).1 := by
  cases hm : r.members.find? d.peer.id with
  | none =>
    rw [Loses, asks_of_unknown hm] at hloses
    cases hloses.1
  | some m =>
    have hknown := find?_replaceInterests hm (h.own _ _ hm) d.subscriptions d.timestamp
    have honce := h.replaceInterests d.peer.id d.subscriptions d.timestamp
    exact honce.exists_not_answersLike_learn_again hknown rfl rfl
      ((asks_of_known hm s).symm.trans hloses.1) ((asks_of_known hknown s).symm.trans hloses.2)

end Follows

end Registry

namespace Situation

/-- What a client knows after some events. -/
def after (s : Situation) (es : List Event) : Registry :=
  (s.run (es.map .event)).client.registry

theorem after_of_not_held {s : Situation} (h : s.client.held = none) (es : List Event) :
    s.after es = (s.client.registry.applyAll es).1 :=
  registry_run_events h es

theorem after_of_held {s : Situation} (h : s.client.held ≠ none) (es : List Event) :
    s.after es = s.client.registry := by
  obtain ⟨held, hheld⟩ := Option.ne_none_iff_exists'.mp h
  exact registry_run_events_of_held hheld es

/-- An event takes a subscription away by a full descriptor that does not list it. -/
def TakesAway (s : Situation) (e : Event) (sub : Subscription) : Prop :=
  e.descriptor?.isSome ∧ s.client.registry.Loses (s.after [e]) e.peer sub

theorem answersLike_event_twice {s : Situation} {l : Chronicle}
    (hfollows : s.client.registry.Follows l) (e : Event) :
    ((∀ es, (s.after (e :: es)).AnswersLike (s.after (e :: e :: es))) ↔
      ∀ sub, ¬ s.TakesAway e sub) ∧
    ∀ es, (∀ sub, s.TakesAway e sub → Event.OnTime e.peer sub e.timestamp? es) →
      (s.after (e :: es)).AnswersLike (s.after (e :: e :: es)) := by
  by_cases hheld : s.client.held = none
  · have htwice : ∀ es, (∀ sub, s.TakesAway e sub → Event.OnTime e.peer sub e.timestamp? es) →
        (s.after (e :: es)).AnswersLike (s.after (e :: e :: es)) := by
      intro es hes
      rw [after_of_not_held hheld, after_of_not_held hheld]
      refine hfollows.answersLike_twice_of_onTime fun sub hd hloses ↦ hes sub ⟨hd, ?_⟩
      rwa [after_of_not_held hheld]
    refine ⟨⟨fun hall sub ⟨hd, hloses⟩ ↦ ?_, fun hnone es ↦ ?_⟩, htwice⟩
    · rw [after_of_not_held hheld] at hloses
      obtain ⟨es, hnot⟩ := hfollows.exists_not_answersLike_twice hd hloses
      have hlike := hall es
      rw [after_of_not_held hheld, after_of_not_held hheld] at hlike
      exact hnot hlike
    · exact htwice es fun sub htakes ↦ absurd htakes (hnone sub)
  · -- all of them are held back
    have hsame : ∀ es, (s.after (e :: es)).AnswersLike (s.after (e :: e :: es)) := by
      intro es
      rw [after_of_held hheld, after_of_held hheld]
      exact .refl _
    refine ⟨⟨fun _ sub ⟨_, hloses⟩ ↦ ?_, fun _ ↦ hsame⟩, fun es _ ↦ hsame es⟩
    rw [after_of_held hheld] at hloses
    cases hloses.1.symm.trans hloses.2

/-- Here the interests of the peer of the descriptor have just been replaced by those that the
descriptor lists. -/
theorem answersLike_echo {s : Situation} {l : Chronicle} {r : Registry} {d : Descriptor Peer}
    (hfollows : r.Follows l) (hheld : s.client.held = none)
    (hregistry : s.client.registry = r.replaceInterests d.peer.id d.subscriptions d.timestamp) :
    ((∀ es, (s.after es).AnswersLike (s.after (.subscriptionsUpdated ⟨d⟩ :: es))) ↔
      r.descriptor? d.peer.id ≠ none ∧ ∀ sub, ¬ r.Loses s.client.registry d.peer.id sub) ∧
    ∀ es, r.descriptor? d.peer.id ≠ none →
      (∀ sub, r.Loses s.client.registry d.peer.id sub →
        Event.OnTime d.peer.id sub d.timestamp es) →
      (s.after es).AnswersLike (s.after (.subscriptionsUpdated ⟨d⟩ :: es)) := by
  have hechoed : ∀ es, r.descriptor? d.peer.id ≠ none →
      (∀ sub, r.Loses s.client.registry d.peer.id sub →
        Event.OnTime d.peer.id sub d.timestamp es) →
      (s.after es).AnswersLike (s.after (.subscriptionsUpdated ⟨d⟩ :: es)) := by
    intro es hknown hes
    obtain ⟨_, hknown⟩ := Option.ne_none_iff_exists'.mp hknown
    obtain ⟨m, hm, -⟩ := Option.map_eq_some_iff.mp hknown
    rw [after_of_not_held hheld, after_of_not_held hheld, hregistry]
    exact hfollows.answersLike_echo_of_onTime hm fun sub hloses ↦ hes sub (hregistry ▸ hloses)
  refine ⟨⟨fun hall ↦ ⟨fun hunknown ↦ ?_, fun sub hloses ↦ ?_⟩, fun ⟨hknown, hnone⟩ es ↦ ?_⟩,
    hechoed⟩
  · have hlike := hall []
    rw [after_of_not_held hheld, after_of_not_held hheld, hregistry] at hlike
    exact Registry.not_answersLike_echo_of_unknown (Option.map_eq_none_iff.mp hunknown) hlike
  · rw [hregistry] at hloses
    obtain ⟨es, hnot⟩ := hfollows.exists_not_answersLike_echo hloses
    have hlike := hall es
    rw [after_of_not_held hheld, after_of_not_held hheld, hregistry] at hlike
    exact hnot hlike
  · exact hechoed es hknown fun sub hloses ↦ absurd hloses (hnone sub)

/-- **When it does not matter that an event comes in twice.**  In every situation that a client can
get into, an event that comes in twice leads to the same answers, under whatever events come after
it, exactly if it does not take a subscription away by a full descriptor.  If it does, it still
leads to the same answers under those events of which none adds such a subscription before its turn:
none that is older than the event itself, or than a removal of the subscription before it.

The same goes for the echo of an update of the local peer, of which the update itself is the first;
and to be harmless the echo must be of a peer that is still known. -/
theorem answersLike_twice_iff (settings : Settings) (clock : Clock) (roster : Roster)
    (acts : List Act) :
    let s := (start settings clock roster).run acts
    (∀ e : Event,
      ((∀ es, (s.after (e :: es)).AnswersLike (s.after (e :: e :: es))) ↔
        ∀ sub, ¬ s.TakesAway e sub) ∧
      ∀ es, (∀ sub, s.TakesAway e sub → Event.OnTime e.peer sub e.timestamp? es) →
        (s.after (e :: es)).AnswersLike (s.after (e :: e :: es))) ∧
    ∀ (self : PeerRef) (d : Descriptor Peer) (now seed : Nat),
      s.client.registeredSelf? = some self → s.client.stamp.1 ≠ none →
      d.peer.id = self.id → d.timestamp = s.client.stamp.1 →
      let s' := s.step (.call (.update d.subscriptions) now seed)
      let echo := Event.subscriptionsUpdated ⟨d⟩
      ((∀ es, (s'.after es).AnswersLike (s'.after (echo :: es))) ↔
        s.client.registry.descriptor? self.id ≠ none ∧
          ∀ sub, ¬ s.client.registry.Loses s'.client.registry self.id sub) ∧
      ∀ es, s.client.registry.descriptor? self.id ≠ none →
        (∀ sub, s.client.registry.Loses s'.client.registry self.id sub →
          Event.OnTime self.id sub d.timestamp es) →
        (s'.after es).AnswersLike (s'.after (echo :: es)) := by
  intro s
  have hfollows : s.client.registry.Follows _ := follows_run settings clock roster acts
  refine ⟨answersLike_event_twice hfollows, fun self d now seed hself hstamp hid htime ↦ ?_⟩
  obtain ⟨t, ht⟩ := Option.ne_none_iff_exists'.mp hstamp
  have hregistry := registry_update hself ht d.subscriptions now seed
  have hheld := (held_update hself d.subscriptions now seed).trans
    (held_of_registered (Client.standing_of_registeredSelf? hself))
  rw [← ht, ← htime, ← hid] at hregistry
  rw [← hid]
  exact answersLike_echo hfollows hheld hregistry

/-! ## What an event takes away twice -/

/-- The subscription is added, so many seconds after noon. -/
def added (id : PeerId) (seconds : Nat) : Event :=
  .subscriptionsAdded ⟨id, [.toAll fakeEvent], some (afterNoon seconds)⟩

/-- A peer that has started at noon with a subscription lists nothing ten seconds later. -/
def listsNothing : Event := .subscriptionsUpdated ⟨told [] 10⟩

/-- The local peer has the subscription no more, as of the next timestamp after noon. -/
def ownNothing : Descriptor Peer where
  peer := ⟨⟨"Abc.Self.0"⟩, { endPoint := "tcp://Abc.Self.0:1" }⟩
  subscriptions := []
  timestamp := (afterNoon 0).afterTick?

/-- The subscription is added again in its turn, and it does not matter that it was taken away
twice. -/
theorem answersLike_addedLater :
    ((inMarch.run [.event (.started ⟨told [.toAll fakeEvent] 0⟩)]).after
        [listsNothing, added ⟨"Abc.P.0"⟩ 15]).AnswersLike
      ((inMarch.run [.event (.started ⟨told [.toAll fakeEvent] 0⟩)]).after
        [listsNothing, listsNothing, added ⟨"Abc.P.0"⟩ 15]) ∧
    (((withServer.run (registers [.toAll fakeEvent])).step (.call (.update []) 0 0)).after
        [added ⟨"Abc.Self.0"⟩ 15]).AnswersLike
      (((withServer.run (registers [.toAll fakeEvent])).step (.call (.update []) 0 0)).after
        [.subscriptionsUpdated ⟨ownNothing⟩, added ⟨"Abc.Self.0"⟩ 15]) := by
  obtain ⟨hevents, -⟩ := answersLike_twice_iff {} ⟨⟨⟨2024, 3, 1⟩, 12, 0, 0, 0, by decide⟩, []⟩ {}
    [.event (.started ⟨told [.toAll fakeEvent] 0⟩)]
  obtain ⟨-, hechoes⟩ := answersLike_twice_iff
    { directoryEndPoints := ["tcp://directory:1"] } ⟨⟨⟨2024, 3, 1⟩, 12, 0, 0, 0, by decide⟩, []⟩
    ⟨#[{ endPoint := "tcp://Abc.Self.0:1" }]⟩ (registers [.toAll fakeEvent])
  have hturn : ∀ id sub e, Event.InTurn id sub [e] := fun _ _ _ ↦ List.pairwise_singleton ..
  refine ⟨(hevents listsNothing).2 [added ⟨"Abc.P.0"⟩ 15] fun sub _ ↦ ⟨?_, hturn _ _ _⟩,
    (hechoes ⟨⟨"Abc.Self.0"⟩, 0⟩ ownNothing 0 0 rfl (by decide) rfl (by decide)).2
      [added ⟨"Abc.Self.0"⟩ 15] (fun h ↦ by cases h) fun sub _ ↦ ⟨?_, hturn _ _ _⟩⟩
  all_goals
    intro e he _
    obtain rfl := List.mem_singleton.mp he
    decide

/-- **It can matter that an event comes in twice**, and that the echo of an update comes in.  After
a peer has listed nothing, an older event adds a subscription.  It is passed over as long as the
time is known at which the subscription was taken away, and that is not so any more when the list
came in twice. -/
theorem not_answersLike_addedEarlier :
    ¬ ((inMarch.run [.event (.started ⟨told [.toAll fakeEvent] 0⟩)]).after
        [listsNothing, added ⟨"Abc.P.0"⟩ 5]).AnswersLike
      ((inMarch.run [.event (.started ⟨told [.toAll fakeEvent] 0⟩)]).after
        [listsNothing, listsNothing, added ⟨"Abc.P.0"⟩ 5]) ∧
    ¬ (((withServer.run (registers [.toAll fakeEvent])).step (.call (.update []) 0 0)).after
        [added ⟨"Abc.Self.0"⟩ 0]).AnswersLike
      (((withServer.run (registers [.toAll fakeEvent])).step (.call (.update []) 0 0)).after
        [.subscriptionsUpdated ⟨ownNothing⟩, added ⟨"Abc.Self.0"⟩ 0]) := by
  constructor
  · intro hlike
    exact absurd ((hlike.handlers ⟨fakeEvent, .empty⟩ ⟨"Abc.P.0"⟩).mpr (by decide)) (by decide)
  · intro hlike
    exact absurd ((hlike.handlers ⟨fakeEvent, .empty⟩ ⟨"Abc.Self.0"⟩).mpr (by decide)) (by decide)

end Situation

end ServiceBus.Directory
