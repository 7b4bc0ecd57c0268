import ServiceBus.Durable.Outbox

/-!
# What the outbox does with commands

Whoever uses the outbox has some commands in hand: the one that is to be given, or those that a
flush is still to send.  A function of the outbox gives some of them to the carrier; of these the
carrier takes some, and all others wait or are still to be flushed, in their order.
`Outbox.Handles` is the statement of this, with one lemma per function.
-/

set_option autoImplicit false

namespace ServiceBus.Durable

/-- The messages that the carrier has taken. -/
def accepted (parcels : List Parcel) : List Envelope :=
  (parcels.filter fun p ↦ !p.failed).map Parcel.message

theorem accepted_append (parcels parcels' : List Parcel) :
    accepted (parcels ++ parcels') = accepted parcels ++ accepted parcels' := by
  simp [accepted]

/-! ## What is taken out of a list -/

/-- Some messages were taken out of a list at one place, and the rest is as it was. -/
def Leaves (sent pending pending' : List Envelope) : Prop :=
  ∃ before after, pending = before ++ (sent ++ after) ∧ pending' = before ++ after

namespace Leaves

variable {sent pending pending' : List Envelope}

theorem nothing (pending : List Envelope) : Leaves [] pending pending := ⟨pending, [], by simp⟩

theorem perm (h : Leaves sent pending pending') : pending.Perm (sent ++ pending') := by
  obtain ⟨before, after, rfl, rfl⟩ := h
  have hswap : (before ++ sent).Perm (sent ++ before) := List.perm_append_comm
  simpa using hswap.append_right after

theorem sublist (h : Leaves sent pending pending') : pending'.Sublist pending := by
  obtain ⟨before, after, rfl, rfl⟩ := h
  exact (List.sublist_append_right sent after).append_left before

theorem append_right (h : Leaves sent pending pending') (others : List Envelope) :
    Leaves sent (pending ++ others) (pending' ++ others) := by
  obtain ⟨before, after, rfl, rfl⟩ := h
  exact ⟨before, after ++ others, by simp⟩

end Leaves

/-! ## What the functions of the outbox do with commands -/

theorem Outside.parcels_of_send_ok {o o' : Outside} {message : Envelope} {targets : List Peer}
    {done : Unit} (h : o.send message targets = (.ok done, o')) :
    o'.carrier.parcels = o.carrier.parcels ++ [⟨message, targets, false⟩] := by
  unfold send Carrier.send at h
  cases hfails : o.carrier.fails message.type with
  | true => simp [hfails] at h
  | false =>
    obtain ⟨-, rfl⟩ := Prod.mk.inj h
    simp [hfails]

theorem Outside.parcels_of_send_error {o o' : Outside} {message : Envelope} {targets : List Peer}
    {failure : Failure} (h : o.send message targets = (.error failure, o')) :
    o'.carrier.parcels = o.carrier.parcels ++ [⟨message, targets, true⟩] := by
  unfold send Carrier.send at h
  cases hfails : o.carrier.fails message.type with
  | false => simp [hfails] at h
  | true =>
    obtain ⟨-, rfl⟩ := Prod.mk.inj h
    simp [hfails]

namespace Outbox

/-- The commands that a flush is still to send. -/
def leavingOf (flush? : Option Flush) : List Envelope := (flush?.map Flush.leaving).getD []

/-- From an outbox, with some commands in hand, something comes about: the carrier is given some
parcels for the server and takes their messages, and the other commands wait or are still to be
flushed, in their order. -/
structure Handles (b : Outbox) (inHand : List Envelope) (o : Outside) (server? : Option Peer)
    (outcome : Outbox × Option Flush × Outside) (new : List Parcel) : Prop where
  carried : outcome.2.2.carrier.parcels = o.carrier.parcels ++ new
  targets : ∀ p ∈ new, ∃ server ∈ server?, p.targets = [server]
  server : ∀ flush ∈ outcome.2.1, flush.server ∈ server?
  leaves : Leaves (accepted new) (b.waiting ++ inHand)
    (outcome.1.waiting ++ leavingOf outcome.2.1)

variable {b : Outbox} {o o' : Outside} {server : Peer} {server? : Option Peer}
  {command : Envelope}

theorem leaves_of_eq {pending pending' : List Envelope} (h : pending = pending') :
    Leaves (accepted []) pending pending' :=
  h ▸ .nothing pending

/-- A parcel was for the server. -/
theorem targets_singleton (hserver : server ∈ server?) (message : Envelope) (failed : Bool) :
    ∀ p ∈ [(⟨message, [server], failed⟩ : Parcel)], ∃ server ∈ server?, p.targets = [server] := by
  intro p hp
  obtain rfl := List.mem_singleton.mp hp
  exact ⟨server, hserver, rfl⟩

theorem mem_of_target? (h : b.target? server? = some server) : server ∈ server? := by
  rw [target?] at h
  split at h
  · cases h
  · exact h

theorem exists_handles_give (b : Outbox) (server? : Option Peer) (command : Envelope)
    (o : Outside) :
    ∃ new, b.Handles [command] o server?
      ((b.give server? command o).1, none, (b.give server? command o).2) new := by
  rw [give]
  split
  · refine ⟨[], ?_, by simp, by simp, leaves_of_eq ?_⟩
    · simp [Outside.note]
    · simp [leavingOf]
  · next server htarget =>
    have hserver := mem_of_target? htarget
    split
    · next hsend =>
      refine ⟨_, Outside.parcels_of_send_ok hsend, targets_singleton hserver _ _, by simp, ?_⟩
      exact ⟨b.waiting, [], by simp [accepted], by simp [leavingOf]⟩
    · next hsend =>
      have hcarried := Outside.parcels_of_send_error hsend
      refine ⟨_, hcarried, targets_singleton hserver _ _, by simp, leaves_of_eq ?_⟩
      simp [leavingOf]

theorem exists_handles_stepFlush (b : Outbox) (f : Flush) (o : Outside) :
    ∃ new, b.Handles f.leaving o (some f.server) (b.stepFlush f o) new := by
  rw [stepFlush]
  split
  · next hleaving =>
    exact ⟨[], by simp, by simp, by simp, leaves_of_eq (by simp [leavingOf, hleaving])⟩
  · next command rest hleaving =>
    split
    · next hsend =>
      refine ⟨_, Outside.parcels_of_send_ok hsend, targets_singleton rfl _ _, by simp, ?_⟩
      exact ⟨b.waiting, rest, by simp [accepted, hleaving], by simp [leavingOf]⟩
    · next hsend =>
      have hcarried := Outside.parcels_of_send_error hsend
      refine ⟨_, hcarried, targets_singleton rfl _ _, by simp, leaves_of_eq ?_⟩
      simp [leavingOf, hleaving]

/-! ## Flushes -/

/-- The commands are left where they are, or a flush takes them all out; nothing is given to the
carrier yet. -/
inductive Starts (b : Outbox) (server? : Option Peer) (o : Outside) :
    Outbox × Option Flush × Outside → Prop
  | nothing {b' : Outbox} {o' : Outside} (waiting : b'.waiting = b.waiting)
      (carrier : o'.carrier = o.carrier) : Starts b server? o (b', none, o')
  | flush {b' : Outbox} {o' : Outside} {server : Peer} (server_mem : server ∈ server?)
      (waiting : b'.waiting = []) (carrier : o'.carrier = o.carrier) :
      Starts b server? o (b', some ⟨server, b.waiting⟩, o')

theorem starts_beginFlush {b' : Outbox} (hwaiting : b'.waiting = b.waiting)
    (hcarrier : o'.carrier = o.carrier) : Starts b server? o (b'.beginFlush server? o') := by
  unfold beginFlush
  split
  · exact .nothing hwaiting hcarrier
  · cases server? with
    | none => exact .nothing hwaiting hcarrier
    | some server => exact hwaiting ▸ .flush rfl rfl hcarrier

theorem starts_beginHear (b : Outbox) (server? : Option Peer) (update : Directory.Update)
    (o : Outside) : Starts b server? o (b.beginHear server? update o) := by
  rw [beginHear]
  split
  · split
    · exact .nothing rfl rfl
    · exact starts_beginFlush rfl rfl
    all_goals exact .nothing rfl rfl
  · exact .nothing rfl rfl

theorem starts_beginCatchUp (b : Outbox) (server? : Option Peer) (o : Outside) :
    Starts b server? o (b.beginCatchUp server? o) := by
  rw [beginCatchUp]
  split
  · exact starts_beginFlush rfl rfl
  · exact .nothing rfl rfl

theorem Starts.handles {outcome : Outbox × Option Flush × Outside}
    (h : Starts b server? o outcome) : b.Handles [] o server? outcome [] := by
  cases h with
  | nothing hwaiting hcarrier =>
    exact ⟨by simp [hcarrier], by simp, by simp, leaves_of_eq (by simp [leavingOf, hwaiting])⟩
  | flush hserver hwaiting hcarrier =>
    refine ⟨by simp [hcarrier], by simp, ?_, leaves_of_eq (by simp [leavingOf, hwaiting])⟩
    intro flush hflush
    obtain rfl := Option.some.inj hflush
    exact hserver

/-- If a flush begins, it has all the commands that waited, and none waits any more. -/
theorem Starts.leaving_eq {outcome : Outbox × Option Flush × Outside} {flush : Flush}
    (h : Starts b server? o outcome) (hflush : flush ∈ outcome.2.1) :
    outcome.1.waiting = [] ∧ flush.leaving = b.waiting := by
  cases h with
  | nothing => cases hflush
  | flush _ hwaiting =>
    obtain rfl := Option.some.inj hflush
    exact ⟨hwaiting, rfl⟩

/-- A flush that goes on has sent its first command. -/
theorem stepFlush_eq_some {b b' : Outbox} {f f' : Flush} {o o' : Outside}
    (h : b.stepFlush f o = (b', some f', o')) :
    b' = b ∧ ∃ command, f.leaving = command :: f'.leaving ∧
      o'.carrier.parcels = o.carrier.parcels ++ [⟨command, [f.server], false⟩] := by
  rw [stepFlush] at h
  split at h
  · cases h
  · next command rest hleaving =>
    split at h
    · next hsend =>
      simp only [Prod.mk.injEq, Option.some.injEq] at h
      obtain ⟨rfl, rfl, rfl⟩ := h
      exact ⟨rfl, command, hleaving, Outside.parcels_of_send_ok hsend⟩
    · cases h

/-- A flush whose next command the carrier fails to send is over, and puts back what was leaving.
-/
theorem stepFlush_of_fails {b : Outbox} {f : Flush} {o : Outside} {command : Envelope}
    {rest : List Envelope} (hleaving : f.leaving = command :: rest)
    (hfails : o.carrier.fails command.type = true) :
    ∃ o', b.stepFlush f o = ({ b with waiting := b.waiting ++ f.leaving }, none, o') := by
  simp [stepFlush, hleaving, Outside.send, Carrier.send, hfails]

end Outbox

end ServiceBus.Durable
