import ServiceBus.Descriptor
import ServiceBus.Instant.Text
import ServiceBus.Json.Form
import ServiceBus.Uuid

/-!
# The wire forms of the nouns of the bus

Ids, types and instants are written as texts; keys, subscriptions, peers and descriptors as records.
A key that is not joined does not say so, and a key that does not say is not joined.
-/

set_option autoImplicit false

namespace ServiceBus

open Json

instance : JsonForm Uuid := .ofText Uuid.text Uuid.ofText?

instance : JsonForm Instant := .ofText Instant.text Instant.ofText?

instance : JsonForm PeerId := .ofText PeerId.text fun text ↦ some ⟨text⟩

instance : JsonForm MessageType := .ofText MessageType.name fun name ↦ some ⟨name⟩

/-- The names of the parts of a key. -/
def Key.partNames : List String := ["parts", "is_joined"]

instance : JsonForm Key where
  write k :=
    ofMembers <| ("parts", JsonForm.write k.parts) ::
      if k.joined then [("is_joined", .truth true)] else []
  read j := do
    match ← j.parts? 1 Key.partNames with
    | [parts, joined] => return ⟨← need parts, ← needOr false joined⟩
    | _ => none

instance : JsonForm Subscription :=
  .ofParts₂ "message_type_id" "binding_key" (fun s ↦ (s.type, s.pattern)) Subscription.mk

/-- The names of the parts of a peer. -/
def Peer.partNames : List String := ["id", "end_point", "is_up", "is_responding"]

instance : JsonForm Peer where
  write p := ofMembers [("id", JsonForm.write p.id),
    ("end_point", JsonForm.write p.contact.endPoint),
    ("is_up", JsonForm.write p.contact.up),
    ("is_responding", JsonForm.write p.contact.responding)]
  read j := do
    match ← j.record? Peer.partNames with
    | [id, endPoint, up, responding] =>
      return ⟨← need id, ⟨← need endPoint, ← need up, ← need responding⟩⟩
    | _ => none

/-- The names of the parts of a descriptor. -/
def Descriptor.partNames : List String :=
  ["peer", "subscriptions", "is_persistent", "timestamp_utc", "has_debugger_attached"]

instance : JsonForm (Descriptor Peer) where
  write d := ofMembers [("peer", JsonForm.write d.peer),
    ("subscriptions", JsonForm.write d.subscriptions),
    ("is_persistent", JsonForm.write d.persistent),
    ("timestamp_utc", JsonForm.write d.timestamp),
    ("has_debugger_attached", JsonForm.write d.debugged)]
  read j := do
    match ← j.record? Descriptor.partNames with
    | [peer, subscriptions, persistent, timestamp, debugged] =>
      return ⟨← need peer, ← need subscriptions, ← need persistent, ← need timestamp,
        ← need debugged⟩
    | _ => none

end ServiceBus
