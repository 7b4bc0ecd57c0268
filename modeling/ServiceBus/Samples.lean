import ServiceBus.Envelope

/-!
# Sample messages

A few message types that stand for those of an application: with a routing key and without, kept and
not kept by the persistence service.
-/

set_option autoImplicit false

namespace ServiceBus.Samples

/-- The full name of a sample message type. -/
def messageType (name : String) : MessageType := ⟨"Tests." ++ name⟩

/-- A command without routing key. -/
structure Command where
  value : UInt32
deriving DecidableEq

/-- An event without routing key. -/
structure Event where
  value : UInt32
deriving DecidableEq

/-- A command that is routed by its content. -/
structure RoutableCommand where
  id : UInt32
  name : String
deriving DecidableEq

/-- An event that is not kept. -/
structure TransientEvent where
deriving DecidableEq

/-- A message of the plumbing of the bus that does not say that it is not to be kept. -/
structure Plumbing where
  text : String
  ratio : Option Int64
deriving DecidableEq

instance : Message Command where
  toJsonForm := .ofPart "value" Command.value Command.mk
  type := messageType "FakeCommand"

instance : Message Event where
  toJsonForm := .ofPart "value" Event.value Event.mk
  type := messageType "FakeEvent"

instance : Message RoutableCommand where
  toJsonForm := .ofParts₂ "id" "name" (fun m ↦ (m.id, m.name)) RoutableCommand.mk
  type := messageType "FakeRoutableCommand"
  routingKey m := ⟨[toString m.id.toNat, m.name], false⟩

instance : Message TransientEvent where
  toJsonForm := .ofNull TransientEvent.mk
  type := messageType "FakeTransientEvent"
  persistent := false

instance : Message Plumbing where
  toJsonForm := .ofParts₂ "text" "ratio" (fun m ↦ (m.text, m.ratio)) Plumbing.mk
  type := messageType "InfraOnly"
  infrastructure := true

end ServiceBus.Samples
