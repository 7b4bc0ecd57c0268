import ServiceBus.Catalogue
import ServiceBus.Proofs.Wire.Forms

/-!
# Messages are read back from their envelopes

The message types of the two protocols are lawful, all but the two that carry another message.  From
there an envelope is opened where its type is asked for, and the directory's events are told apart
by their types, of which no two are the same.

`Envelope.decode_encode_of_protocol` is the account of both protocols: every message comes out of
its envelope as it was put in, a message inside a message without the mark that it was replayed; an
envelope itself travels in the same way; and the reader of events gives each event that is put in,
and nothing exactly for the envelopes of all other types.
-/

set_option autoImplicit false

namespace ServiceBus

open JsonForm

/-! ## The message types -/

namespace Directory

instance : LawfulJsonForm Register := ⟨fun _ ↦ .ofPart (becomes _) rfl⟩

instance : LawfulJsonForm Registered := ⟨fun _ ↦ .ofPart (becomes _) rfl⟩

instance : LawfulJsonForm Unregister :=
  ⟨fun _ ↦ .ofParts₃ (becomes _) (becomes _) (becomes _) rfl (by decide)⟩

instance : LawfulJsonForm UpdateSubscriptions :=
  ⟨fun _ ↦ .ofParts₃ (becomes _) (becomes _) (becomes _) rfl (by decide)⟩

instance : LawfulJsonForm Started := ⟨fun _ ↦ .ofPart (becomes _) rfl⟩

instance : LawfulJsonForm Stopped :=
  ⟨fun _ ↦ .ofParts₃ (becomes _) (becomes _) (becomes _) rfl (by decide)⟩

instance : LawfulJsonForm Decommissioned := ⟨fun _ ↦ .ofPart (becomes _) rfl⟩

instance : LawfulJsonForm SubscriptionsUpdated := ⟨fun _ ↦ .ofPart (becomes _) rfl⟩

instance : LawfulJsonForm SubscriptionsAdded :=
  ⟨fun _ ↦ .ofParts₃ (becomes _) (becomes _) (becomes _) rfl (by decide)⟩

instance : LawfulJsonForm SubscriptionsRemoved :=
  ⟨fun _ ↦ .ofParts₃ (becomes _) (becomes _) (becomes _) rfl (by decide)⟩

instance : LawfulJsonForm TypeInterest :=
  ⟨fun _ ↦ .ofParts₂ (becomes _) (becomes _) rfl (by decide)⟩

instance : LawfulJsonForm SubscriptionsForTypesUpdated :=
  ⟨fun _ ↦ .ofParts₃ (becomes _) (becomes _) (becomes _) rfl (by decide)⟩

instance : LawfulJsonForm NotResponding := ⟨fun _ ↦ .ofPart (becomes _) rfl⟩

instance : LawfulJsonForm Responding :=
  ⟨fun _ ↦ .ofParts₂ (becomes _) (becomes _) rfl (by decide)⟩

end Directory

namespace Durable

instance : LawfulJsonForm StartReplay := ⟨fun _ ↦ .ofPart (becomes _) rfl⟩

instance : LawfulJsonForm ReplayPhaseEnded := ⟨fun _ ↦ .ofPart (becomes _) rfl⟩

instance : LawfulJsonForm SafetyPhaseEnded := ⟨fun _ ↦ .ofPart (becomes _) rfl⟩

instance : LawfulJsonForm Handled := ⟨fun _ ↦ .ofPart (becomes _) rfl⟩

instance : LawfulJsonForm Stopping := ⟨fun _ ↦ .ofNull rfl⟩

instance : LawfulJsonForm StoppingAck := ⟨fun _ ↦ .ofNull rfl⟩

theorem becomes_replayed (m : Replayed) :
    Becomes m { m with message := { m.message with replayed := false } } :=
  .ofParts₂ (becomes m.replay) (becomes_envelope m.message) rfl (by decide)

theorem becomes_persist (m : Persist) :
    Becomes m { m with message := { m.message with replayed := false } } :=
  .ofParts₂ (becomes_envelope m.message) (becomes m.targets) rfl (by decide)

end Durable

/-- The message types of the directory. -/
def Directory.kinds : List Kind :=
  [⟨Register⟩, ⟨Registered⟩, ⟨Unregister⟩, ⟨UpdateSubscriptions⟩, ⟨Started⟩, ⟨Stopped⟩,
    ⟨Decommissioned⟩, ⟨SubscriptionsUpdated⟩, ⟨SubscriptionsAdded⟩, ⟨SubscriptionsRemoved⟩,
    ⟨SubscriptionsForTypesUpdated⟩, ⟨NotResponding⟩, ⟨Responding⟩]

/-- The message types of the persistence service, but for `Replayed` and `Persist`, which carry
other messages. -/
def Durable.plainKinds : List Kind :=
  [⟨StartReplay⟩, ⟨ReplayPhaseEnded⟩, ⟨SafetyPhaseEnded⟩, ⟨Handled⟩, ⟨Stopping⟩, ⟨StoppingAck⟩]

theorem Directory.lawful_of_mem {k : Kind} (h : k ∈ kinds) : LawfulJsonForm k.Body := by
  simp only [kinds, List.mem_cons, List.not_mem_nil, or_false] at h
  obtain rfl | rfl | rfl | rfl | rfl | rfl | rfl | rfl | rfl | rfl | rfl | rfl | rfl := h <;>
    exact inferInstance

theorem Durable.lawful_of_mem {k : Kind} (h : k ∈ plainKinds) : LawfulJsonForm k.Body := by
  simp only [plainKinds, List.mem_cons, List.not_mem_nil, or_false] at h
  obtain rfl | rfl | rfl | rfl | rfl | rfl := h <;> exact inferInstance

/-! ## Opening an envelope -/

namespace Envelope

variable {α β : Type} [Message α] [Message β]

theorem is_iff {e : Envelope} : e.is α ↔ e.type = Message.type α := decide_eq_true_iff

theorem is_encode (id : Uuid) (a : α) (origin : Origin) :
    (encode id a origin).is β = decide (Message.type α = Message.type β) := rfl

theorem decode_encode {a b : α} (h : Becomes a b) (id : Uuid) (origin : Origin) :
    (encode id a origin).decode α = .ok b := by
  rw [decode, if_pos (is_iff.mpr rfl), encode, h.decode_encode]

end Envelope

/-! ## The events of the directory -/

namespace Directory.Event

/-- The envelope that brings an event. -/
def encode (id : Uuid) (origin : Origin) : Event → Envelope
  | started body => .encode id body origin
  | stopped body => .encode id body origin
  | decommissioned body => .encode id body origin
  | subscriptionsUpdated body => .encode id body origin
  | subscriptionsAdded body => .encode id body origin
  | subscriptionsRemoved body => .encode id body origin
  | subscriptionsForTypesUpdated body => .encode id body origin
  | notResponding body => .encode id body origin
  | responding body => .encode id body origin

/-- The types of messages that bring events. -/
def types : List MessageType :=
  [Message.type Started, Message.type Stopped, Message.type Decommissioned,
    Message.type SubscriptionsUpdated, Message.type SubscriptionsAdded,
    Message.type SubscriptionsRemoved, Message.type SubscriptionsForTypesUpdated,
    Message.type NotResponding, Message.type Responding]

theorem nodup_types : types.Nodup := by decide

/-- Each of the nine types is told from those that are asked for before it. -/
theorem ofEnvelope?_encode (id : Uuid) (origin : Origin) (event : Event) :
    ofEnvelope? (event.encode id origin) = .ok (some event) := by
  have hne := nodup_types.imp Ne.symm
  simp only [types, List.pairwise_cons, List.forall_mem_cons] at hne
  cases event <;>
    simp [ofEnvelope?, encode, Envelope.is_encode, Envelope.decode_encode (becomes _), Except.map,
      hne]

theorem map_ne_ok_none {α : Type} (x : Except Failure α) (event : α → Event) :
    x.map (fun body ↦ some (event body)) ≠ .ok none := by
  cases x <;> nofun

/-- No event comes out of an envelope exactly when its type is none of the nine. -/
theorem ofEnvelope?_eq_ok_none {e : Envelope} : ofEnvelope? e = .ok none ↔ e.type ∉ types := by
  simp only [ofEnvelope?, types, List.mem_cons, List.not_mem_nil, or_false, ← Envelope.is_iff]
  repeat' split
  all_goals simp_all [map_ne_ok_none]

end Directory.Event

/-! ## Both protocols -/

/-- **What is put into an envelope comes out of it.**  Every message of the two protocols does, for
`kinds` and `plainKinds` are all message types but two; these carry another message, which comes out
without the mark that it was replayed.  An envelope that is itself written as JSON loses this mark
and nothing else.  Each event of the directory is recognised, and an envelope of any other type is
known to bring none. -/
theorem Envelope.decode_encode_of_protocol (id : Uuid) (origin : Origin) :
    (∀ k ∈ Directory.kinds ++ Durable.plainKinds, ∀ a : k.Body,
      (encode id a origin).decode k.Body = .ok a) ∧
    (∀ m : Durable.Replayed, (encode id m origin).decode Durable.Replayed =
      .ok { m with message := { m.message with replayed := false } }) ∧
    (∀ m : Durable.Persist, (encode id m origin).decode Durable.Persist =
      .ok { m with message := { m.message with replayed := false } }) ∧
    (∀ e : Envelope, JsonForm.decode (JsonForm.encode e) = some { e with replayed := false }) ∧
    (∀ event : Directory.Event,
      Directory.Event.ofEnvelope? (event.encode id origin) = .ok (some event)) ∧
    ∀ e : Envelope, Directory.Event.ofEnvelope? e = .ok none ↔ e.type ∉ Directory.Event.types := by
  refine ⟨fun k hk a ↦ ?_, fun m ↦ decode_encode (Durable.becomes_replayed m) id origin,
    fun m ↦ decode_encode (Durable.becomes_persist m) id origin,
    fun e ↦ (becomes_envelope e).decode_encode, Directory.Event.ofEnvelope?_encode id origin,
    fun e ↦ Directory.Event.ofEnvelope?_eq_ok_none⟩
  have hlawful : LawfulJsonForm k.Body := by
    obtain hk | hk := List.mem_append.mp hk
    · exact Directory.lawful_of_mem hk
    · exact Durable.lawful_of_mem hk
  exact decode_encode (hlawful.becomes a) id origin

/-- A peer with all that is not written plainly: a quote and an accent in its names, a pattern with
and without the mark that it is joined, a year of five digits and a leap second with a fraction. -/
def Directory.intricate : Descriptor Peer where
  peer := ⟨⟨"Abc.\"Café\".0"⟩, { endPoint := "tcp://café:1\n", up := false }⟩
  subscriptions := [⟨⟨"Abc.Order"⟩, ⟨["EUR", "*"], false⟩⟩, ⟨⟨"Abc.Order"⟩, .ofJoined "EUR.USD"⟩]
  persistent := true
  timestamp := some ⟨⟨12024, 6, 30⟩, 23, 59, 60, 250000000, by decide⟩

/-- It is registered as it is; a replayed message with any octets loses its mark; and a signal of
the persistence service is no event. -/
theorem Envelope.decode_encode_intricate :
    let origin : Origin := ⟨⟨"Abc.Self.0"⟩, "tcp://self:1"⟩
    let kept : Envelope := { signal .zero ⟨"Abc.Order"⟩ origin with
      content := [0, 34, 92, 255], replayed := true }
    (encode .zero (Directory.Register.mk Directory.intricate) origin).decode Directory.Register =
      .ok ⟨Directory.intricate⟩ ∧
    (encode .zero (Durable.Replayed.mk .zero kept) origin).decode Durable.Replayed =
      .ok ⟨.zero, { kept with replayed := false }⟩ ∧
    Directory.Event.ofEnvelope? kept = .ok none := by
  intro origin kept
  obtain ⟨hkinds, hreplayed, -, -, -, hnone⟩ := decode_encode_of_protocol .zero origin
  exact ⟨hkinds ⟨Directory.Register⟩ (List.mem_append_left _ List.mem_cons_self) _, hreplayed _,
    (hnone kept).mpr (by decide)⟩

end ServiceBus
