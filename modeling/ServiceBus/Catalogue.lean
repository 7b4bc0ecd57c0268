import ServiceBus.Directory.Protocol
import ServiceBus.Durable.Protocol
import ServiceBus.Samples

/-!
# All message types

A `Kind` is a message type as a value, so that a type can be looked up by its name.
-/

set_option autoImplicit false

namespace ServiceBus

/-- A message type as a value. -/
structure Kind where
  /-- The type of the bodies. -/
  Body : Type
  /-- What makes it a message type. -/
  [message : Message Body]

instance (k : Kind) : Message k.Body := k.message

/-- The full name of a message type. -/
def Kind.type (k : Kind) : MessageType := Message.type k.Body

/-- Every message type of the bus, and the samples. -/
def catalogue : List Kind :=
  [⟨Directory.Register⟩, ⟨Directory.Registered⟩, ⟨Directory.Unregister⟩,
    ⟨Directory.UpdateSubscriptions⟩, ⟨Directory.Started⟩, ⟨Directory.Stopped⟩,
    ⟨Directory.Decommissioned⟩, ⟨Directory.SubscriptionsUpdated⟩,
    ⟨Directory.SubscriptionsAdded⟩, ⟨Directory.SubscriptionsRemoved⟩,
    ⟨Directory.SubscriptionsForTypesUpdated⟩, ⟨Directory.NotResponding⟩,
    ⟨Directory.Responding⟩, ⟨Durable.StartReplay⟩, ⟨Durable.Replayed⟩,
    ⟨Durable.ReplayPhaseEnded⟩, ⟨Durable.SafetyPhaseEnded⟩, ⟨Durable.Persist⟩,
    ⟨Durable.Handled⟩, ⟨Durable.Stopping⟩, ⟨Durable.StoppingAck⟩, ⟨Samples.Command⟩,
    ⟨Samples.Event⟩, ⟨Samples.RoutableCommand⟩, ⟨Samples.TransientEvent⟩, ⟨Samples.Plumbing⟩]

end ServiceBus
