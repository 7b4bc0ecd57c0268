import ServiceBus.Proofs.Durable.Handling
import ServiceBus.Durable.Transport

/-!
# Copies for peers that may be away

A message for peers that may be away goes to the peers themselves, and the persistence service is
given the command to keep a copy for them.  The command comes last: the carrier is first given one
copy for the peers for which nothing is kept, and a marked one for the others.

Each of these sends may fail, and then nothing more is done.  `Outside.sendEach` is this manner of
sending, `Transport.send_eq` says that a message is sent in it, and `Transport.send_eq_ok_iff` says
what became of the command in each case.
-/

set_option autoImplicit false

namespace ServiceBus.Durable

open Directory (View)

namespace Outside

/-- Sends copies to peers, one after the other, until one fails. -/
def sendEach : List (Envelope × List Peer) → Outside → Except Failure Unit × Outside
  | [], o => (.ok (), o)
  | copy :: rest, o =>
    match o.send copy.1 copy.2 with
    | (.error failure, o) => (.error failure, o)
    | (.ok _, o) => sendEach rest o

/-- The copies that the carrier was given and has taken. -/
def taken (copies : List (Envelope × List Peer)) : List Parcel :=
  copies.map fun copy ↦ ⟨copy.1, copy.2, false⟩

/-- Either the carrier takes all copies, or it fails at one of them and is not given the others. -/
theorem sendEach_eq_or (copies : List (Envelope × List Peer)) (o : Outside) :
    (∃ o', o.sendEach copies = (.ok (), o') ∧
      o'.carrier.parcels = o.carrier.parcels ++ taken copies) ∨
    ∃ failure o' before copy after, o.sendEach copies = (.error failure, o') ∧
      copies = before ++ copy :: after ∧
      o'.carrier.parcels = o.carrier.parcels ++ (taken before ++ [⟨copy.1, copy.2, true⟩]) := by
  induction copies generalizing o with
  | nil => exact Or.inl ⟨o, rfl, by simp [taken]⟩
  | cons copy rest ih =>
    rw [sendEach]
    cases hsend : o.send copy.1 copy.2 with
    | mk result o₁ =>
      cases result with
      | error failure =>
        refine Or.inr ⟨failure, o₁, [], copy, rest, rfl, rfl, ?_⟩
        exact parcels_of_send_error hsend
      | ok _ =>
        have hparcels := parcels_of_send_ok hsend
        obtain ⟨o', hrest, hcarried⟩ | ⟨failure, o', before, copy', after, hrest, rfl, hcarried⟩ :=
          ih o₁
        · refine Or.inl ⟨o', hrest, ?_⟩
          rw [hcarried, hparcels, List.append_assoc]
          rfl
        · refine Or.inr ⟨failure, o', copy :: before, copy', after, hrest, rfl, ?_⟩
          rw [hcarried, hparcels, List.append_assoc]
          rfl

end Outside

namespace Outbox

/-- A command was given: the carrier has taken it for the server, or it waits. -/
def Gives (b : Outbox) (server? : Option Peer) (command : Envelope) (new : List Parcel)
    (b' : Outbox) : Prop :=
  (b' = b ∧ ∃ server ∈ server?, new = [⟨command, [server], false⟩]) ∨
    b' = { b with waiting := b.waiting ++ [command] } ∧
      (new = [] ∨ ∃ server ∈ server?, new = [⟨command, [server], true⟩])

theorem exists_gives (b : Outbox) (server? : Option Peer) (command : Envelope) (o : Outside) :
    ∃ new, (b.give server? command o).2.carrier.parcels = o.carrier.parcels ++ new ∧
      b.Gives server? command new (b.give server? command o).1 := by
  rw [give]
  split
  · exact ⟨[], by simp [Outside.note], Or.inr ⟨rfl, Or.inl rfl⟩⟩
  · next server htarget =>
    have hserver := mem_of_target? htarget
    split
    · next hsend =>
      exact ⟨_, Outside.parcels_of_send_ok hsend, Or.inl ⟨rfl, server, hserver, rfl⟩⟩
    · next hsend =>
      have hcarried := Outside.parcels_of_send_error hsend
      exact ⟨_, hcarried, Or.inr ⟨rfl, Or.inr ⟨server, hserver, rfl⟩⟩⟩

end Outbox

namespace Transport

/-- The copies of a message that go to the peers themselves: a plain one to those for which nothing
is kept, if there are any, and then a marked one to the others. -/
def copies (v : View) (message : Envelope) (targets : List Peer) : List (Envelope × List Peer) :=
  let others := targets.filter fun p ↦ !v.isPersistent p.id
  (if others.isEmpty then [] else [(message, others)]) ++
    [({ message with persisted := true }, targets.filter fun p ↦ v.isPersistent p.id)]

/-- What the persistence service is asked to keep of a message. -/
def kept (v : View) (message : Envelope) (targets : List Peer) : Persist :=
  ⟨{ message with persisted := true },
    (targets.filter fun p ↦ v.isPersistent p.id).map Peer.id⟩

variable {t : Transport} {v : View} {message : Envelope} {targets : List Peer} {o : Outside}

theorem persist_eq (targets : List Peer) :
    t.persist v message targets o =
      match o.sendEach [({ message with persisted := true }, targets)] with
      | (.error failure, o) => (.error failure, t, o)
      | (.ok _, o) => (.ok (), t.tellPersistence v
          (⟨{ message with persisted := true }, targets.map Peer.id⟩ : Persist) o) := by
  rw [persist, Outside.sendEach]
  dsimp only
  cases o.send { message with persisted := true } targets with
  | mk result o' => cases result <;> rfl

/-- To send a message of which copies are kept is to send the copies for the peers themselves, and
then to give the command. -/
theorem send_eq (hmessage : message.persistent = true)
    (hkept : ∃ p ∈ targets, v.isPersistent p.id = true) :
    t.send v message targets o =
      match o.sendEach (copies v message targets) with
      | (.error failure, o) => (.error failure, t, o)
      | (.ok _, o) => (.ok (), t.tellPersistence v (kept v message targets) o) := by
  have hsome : (targets.filter fun p ↦ v.isPersistent p.id).isEmpty = false := by
    obtain ⟨p, hp, hpersistent⟩ := hkept
    rw [List.isEmpty_eq_false_iff]
    exact List.ne_nil_of_mem (List.mem_filter.mpr ⟨hp, hpersistent⟩)
  rw [send, if_neg (by simp [hmessage]), List.partition_eq_filter_filter, copies]
  simp only [hsome, Bool.false_eq_true, if_false, persist_eq, Function.comp_def]
  cases (targets.filter fun p ↦ !v.isPersistent p.id).isEmpty with
  | true => rfl
  | false =>
    simp only [Bool.false_eq_true, if_false, List.singleton_append, Outside.sendEach]
    cases o.send message (targets.filter fun p ↦ !v.isPersistent p.id) with
    | mk result o' => cases result <;> rfl

/-- To tell the persistence service something is to give it a command. -/
theorem exists_gives_tellPersistence {α : Type} [Message α] (t : Transport) (v : View) (command : α)
    (o : Outside) :
    ∃ id new, (t.tellPersistence v command o).2.carrier.parcels = o.carrier.parcels ++ new ∧
      t.outbox.Gives v.persistenceServer? (.encode id command t.origin) new
        (t.tellPersistence v command o).1.outbox :=
  ⟨o.fresh.1, t.outbox.exists_gives v.persistenceServer? _ o.fresh.2⟩

/-- **The command is given just if the message is sent.**  A message that has a peer for which
copies are kept is sent, and then the persistence service has the command for the marked copy and
just these peers, or the command waits; or the carrier fails at one of the copies for the peers
themselves.  Then the carrier is given nothing after that copy, and nothing waits that did not wait
before. -/
theorem send_eq_ok_iff (hmessage : message.persistent = true)
    (hkept : ∃ p ∈ targets, v.isPersistent p.id = true) :
    let copies := copies v message targets
    let sent := t.send v message targets o
    (sent.1 = .ok () ↔ ∃ id new,
      sent.2.2.carrier.parcels = o.carrier.parcels ++ (Outside.taken copies ++ new) ∧
      t.outbox.Gives v.persistenceServer? (.encode id (kept v message targets) t.origin) new
        sent.2.1.outbox) ∧
    (sent.1 ≠ .ok () → sent.2.1 = t ∧ ∃ before copy after, copies = before ++ copy :: after ∧
      sent.2.2.carrier.parcels =
        o.carrier.parcels ++ (Outside.taken before ++ [⟨copy.1, copy.2, true⟩])) := by
  intro copies sent
  obtain ⟨o', hsend, hcarried⟩ | ⟨failure, o', before, copy, after, hsend, hcopies, hcarried⟩ :=
    Outside.sendEach_eq_or copies o
  · have hsent : sent = (.ok (), t.tellPersistence v (kept v message targets) o') := by
      simp only [sent, send_eq hmessage hkept]
      rw [hsend]
    obtain ⟨id, new, hnew, hgives⟩ :=
      exists_gives_tellPersistence t v (kept v message targets) o'
    rw [hsent]
    refine ⟨iff_of_true rfl ⟨id, new, ?_, hgives⟩, fun hne ↦ absurd rfl hne⟩
    rw [hnew, hcarried, List.append_assoc]
  · have hsent : sent = (.error failure, t, o') := by
      simp only [sent, send_eq hmessage hkept]
      rw [hsend]
    rw [hsent]
    refine ⟨iff_of_false nofun ?_, fun _ ↦ ⟨rfl, before, copy, after, hcopies, hcarried⟩⟩
    rintro ⟨id, new, hall, -⟩
    -- the carrier cannot have taken the copy at which it failed
    have hsame := List.append_cancel_left (hall.symm.trans hcarried)
    rw [hcopies, Outside.taken, List.map_append, List.append_assoc] at hsame
    have hhead := List.append_cancel_left hsame
    simp at hhead

/-- A directory that knows a server of the persistence service, where messages are kept for one
peer. -/
def oneKept : View where
  roster := ⟨#[{ endPoint := "tcp://Bus.PersistenceService.0:1" }]⟩
  handlers := fun _ ↦ [⟨.persistence "0", 0⟩]
  isPersistent := fun id ↦ id = ⟨"Abc.Durable.0"⟩

/-- The peer for which messages are kept, and another one. -/
def twoPeers : List Peer :=
  [.live ⟨"Abc.Durable.0"⟩ "tcp://Abc.Durable.0:1",
    .live ⟨"Abc.Volatile.0"⟩ "tcp://Abc.Volatile.0:1"]

/-- A message of the application. -/
def letter : Envelope where
  id := .fresh 9
  type := ⟨"Tests.FakeEvent"⟩
  content := []
  origin := ⟨⟨"Abc.Self.0"⟩, "tcp://Abc.Self.0:1"⟩
  persistent := true
  persisted := false

/-- The message is sent to both peers, and the carrier fails at some of the sends. -/
def sendsBoth (verdicts : List Bool) : Except Failure Unit × Transport × Outside :=
  (ofSettings {} letter.origin).send oneKept letter twoPeers { carrier := { verdicts } }

/-- If the carrier fails at the command only, the message is sent and the command waits. -/
theorem waiting_sendsBoth :
    (sendsBoth [false, false, true]).1 = .ok () ∧
    (sendsBoth [false, false, true]).2.1.outbox.waiting.map Envelope.type = [Message.type Persist] ∧
    ∃ id new,
      (ofSettings {} letter.origin).outbox.Gives oneKept.persistenceServer?
        (.encode id (kept oneKept letter twoPeers) letter.origin) new
        (sendsBoth [false, false, true]).2.1.outbox := by
  have hkept : ∃ p ∈ twoPeers, oneKept.isPersistent p.id = true :=
    ⟨_, List.mem_cons_self, by decide⟩
  have hmessage : letter.persistent = true := rfl
  obtain ⟨id, new, -, hgives⟩ := (send_eq_ok_iff (t := ofSettings {} letter.origin)
    (o := { carrier := { verdicts := [false, false, true] } }) hmessage hkept).1.mp rfl
  exact ⟨rfl, rfl, id, new, hgives⟩

/-- What was sent so far holds no command for the persistence service, and none waits. -/
def LeavesOut (sent : Except Failure Unit × Transport × Outside) : Prop :=
  sent.2.1.outbox.waiting = [] ∧
    ∀ p ∈ sent.2.2.carrier.parcels, p.message.type ≠ Message.type Persist

/-- If the carrier fails at one of the copies, the persistence service is given no command, and none
waits. -/
theorem leavesOut_sendsBoth :
    LeavesOut (sendsBoth [true]) ∧ LeavesOut (sendsBoth [false, true]) := by
  unfold LeavesOut
  decide

end Transport

end ServiceBus.Durable
