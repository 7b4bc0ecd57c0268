import ServiceBus.Envelope

/-!
# The protocol of the persistence service

The persistence service keeps messages for peers that are away, and replays them when the peer is
back.  None of its own messages is kept.
-/

set_option autoImplicit false

namespace ServiceBus.Durable

/-- The full name of a message type of the persistence service. -/
def messageType (name : String) : MessageType := ⟨"Bus.Persistence." ++ name⟩

/-- Asks for a replay of what the sender has missed. -/
structure StartReplay where
  /-- The id of the replay. -/
  replay : Uuid
deriving DecidableEq

/-- A message that was kept. -/
structure Replayed where
  /-- The id of the replay. -/
  replay : Uuid
  /-- The message. -/
  message : Envelope
deriving DecidableEq

/-- Everything that was kept before the replay began has been replayed. -/
structure ReplayPhaseEnded where
  /-- The id of the replay. -/
  replay : Uuid
deriving DecidableEq

/-- Nothing more will be replayed. -/
structure SafetyPhaseEnded where
  /-- The id of the replay. -/
  replay : Uuid
deriving DecidableEq

/-- Asks for a copy of a message to be kept until each target has handled it. -/
structure Persist where
  /-- The message. -/
  message : Envelope
  /-- The peers that it is for. -/
  targets : List PeerId
deriving DecidableEq

/-- Tells that a message was handled. -/
structure Handled where
  /-- The id of the message. -/
  message : Uuid
deriving DecidableEq

/-- The persistence service is about to stop. -/
structure Stopping where
deriving DecidableEq

/-- It was heard that the persistence service is about to stop. -/
structure StoppingAck where
deriving DecidableEq

/-! ## Names and wire forms -/

instance : Message StartReplay where
  toJsonForm := .ofPart "replay_id" StartReplay.replay StartReplay.mk
  type := messageType "StartMessageReplayCommand"
  persistent := false
  infrastructure := true

instance : Message Replayed where
  toJsonForm := .ofParts₂ "replay_id" "message" (fun m ↦ (m.replay, m.message)) Replayed.mk
  type := messageType "MessageReplayed"
  persistent := false
  infrastructure := true

instance : Message ReplayPhaseEnded where
  toJsonForm := .ofPart "replay_id" ReplayPhaseEnded.replay ReplayPhaseEnded.mk
  type := messageType "ReplayPhaseEnded"
  persistent := false
  infrastructure := true

instance : Message SafetyPhaseEnded where
  toJsonForm := .ofPart "replay_id" SafetyPhaseEnded.replay SafetyPhaseEnded.mk
  type := messageType "SafetyPhaseEnded"
  persistent := false
  infrastructure := true

instance : Message Persist where
  toJsonForm := .ofParts₂ "message" "target_peer_ids" (fun m ↦ (m.message, m.targets)) Persist.mk
  type := messageType "PersistMessageCommand"
  persistent := false
  infrastructure := true

instance : Message Handled where
  toJsonForm := .ofPart "message_id" Handled.message Handled.mk
  type := messageType "MessageHandled"
  persistent := false
  infrastructure := true

instance : Message Stopping where
  toJsonForm := .ofNull Stopping.mk
  type := messageType "PersistenceStopping"
  persistent := false
  infrastructure := true

instance : Message StoppingAck where
  toJsonForm := .ofNull StoppingAck.mk
  type := messageType "PersistenceStoppingAck"
  persistent := false
  infrastructure := true

end ServiceBus.Durable
