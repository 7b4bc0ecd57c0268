import ServiceBus.Failure
import ServiceBus.Wire

/-!
# Messages and their envelopes

A type of messages has a name, a JSON form for its bodies, and a routing key that the body gives.
What travels is an `Envelope`: the encoded body with the name of its type, an id, the sender, and two
marks for the persistence service.

A message *may be kept* by the persistence service when its type is persistent and does not belong
to the plumbing of the bus.
-/

set_option autoImplicit false

namespace ServiceBus

/-- A type of messages. -/
class Message (α : Type) extends JsonForm α where
  /-- The full name of the type. -/
  type : MessageType
  /-- Messages of the type are kept for peers that are away. -/
  persistent : Bool := true
  /-- The type belongs to the plumbing of the bus. -/
  infrastructure : Bool := false
  /-- The routing key that the body gives. -/
  routingKey : α → Key := fun _ ↦ .empty

namespace Message

/-- What a message is routed by. -/
def topic {α : Type} [Message α] (a : α) : Topic := ⟨type α, routingKey a⟩

end Message

/-- Who sent a message. -/
structure Origin where
  /-- The id of the sender. -/
  sender : PeerId
  /-- Where the sender was reached when it sent. -/
  endPoint : String
deriving DecidableEq, Repr, Inhabited

/-- A message as it travels. -/
structure Envelope where
  /-- The id of this message. -/
  id : Uuid
  /-- The type of the body. -/
  type : MessageType
  /-- The encoded body. -/
  content : Octets
  /-- Who sent it. -/
  origin : Origin
  /-- The persistence service may keep a copy. -/
  persistent : Bool
  /-- The persistence service has a copy, and waits to hear that the message was handled. -/
  persisted : Bool
  /-- The message was replayed, so the persistence service waits to hear of it in any case.  This
  mark does not travel. -/
  replayed : Bool := false
deriving DecidableEq, Inhabited

namespace Envelope

/-- Whether the persistence service is to hear that the message was handled. -/
def needsAck (e : Envelope) : Bool := e.persisted || e.replayed

/-- Puts a message into an envelope with the given id. -/
def encode {α : Type} [Message α] (id : Uuid) (a : α) (origin : Origin) : Envelope where
  id := id
  type := Message.type α
  content := JsonForm.encode a
  origin := origin
  persistent := Message.persistent α && !Message.infrastructure α
  persisted := false

/-- A message without body. -/
def signal (id : Uuid) (type : MessageType) (origin : Origin) : Envelope :=
  { id, type, content := [], origin, persistent := false, persisted := false }

/-- Whether the body is of type `α`. -/
def is (α : Type) [Message α] (e : Envelope) : Bool := e.type = Message.type α

/-- The message in an envelope. -/
def decode (α : Type) [Message α] (e : Envelope) : Except Failure α :=
  if e.is α then
    match JsonForm.decode e.content with
    | some a => .ok a
    | none => .error .serialization
  else .error (.unexpectedType (Message.type α).name e.type.name)

/-- The names of the parts of an envelope that travel. -/
def partNames : List String :=
  ["id", "message_type_id", "content", "originator", "is_persistent", "was_persisted"]

end Envelope

open Json

instance : JsonForm Origin :=
  .ofParts₂ "sender_id" "sender_end_point" (fun o ↦ (o.sender, o.endPoint)) Origin.mk

instance : JsonForm Envelope where
  write e := ofMembers [("id", JsonForm.write e.id), ("message_type_id", JsonForm.write e.type),
    ("content", JsonForm.write e.content), ("originator", JsonForm.write e.origin),
    ("is_persistent", JsonForm.write e.persistent), ("was_persisted", JsonForm.write e.persisted)]
  read j := do
    match ← j.record? Envelope.partNames with
    | [id, type, content, origin, persistent, persisted] =>
      return ⟨← need id, ← need type, ← need content, ← need origin, ← need persistent,
        ← need persisted, false⟩
    | _ => none

end ServiceBus
