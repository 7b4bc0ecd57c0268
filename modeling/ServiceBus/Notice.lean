import ServiceBus.Directory.Update
import ServiceBus.Durable.Phase
import ServiceBus.Envelope
import ServiceBus.Instant.Text
import ServiceBus.Text.Quoted

/-!
# Notices

Whatever the bus does of its own accord, or meets with while it does what it was asked to do, it
gives notice of.  A notice is a cause with its facts.  `Notice.record` is the form in which it is
reported: the name of the event, the part of the bus that reports it, how grave it is, and the facts
as texts.
-/

set_option autoImplicit false

namespace ServiceBus

/-- How grave a notice is. -/
inductive Level
  | trace
  | debug
  | info
  | warn
  | error
deriving DecidableEq, Repr

/-- The name of a level. -/
def Level.name : Level → String
  | trace => "trace"
  | debug => "debug"
  | info => "info"
  | warn => "warn"
  | error => "error"

open Directory Durable

/-- Why a directory server did not take a registration. -/
inductive Refusal
  /-- It answered with an error code. -/
  | code (code : Int)
  /-- It answered without the peers that it knows. -/
  | noAnswer
deriving DecidableEq, Repr

/-- The name of the reason of a refusal. -/
def Refusal.name : Refusal → String
  | code 1 => "peer_already_exists"
  | code 2 => "invalid_peer_descriptor"
  | code _ => "directory_error"
  | noAnswer => "missing_response"

/-- What the bus gives notice of. -/
inductive Notice
  /-- A registration begins, and these servers will be tried. -/
  | registering (peer : PeerId) (servers : List Peer)
  /-- A server could not be reached. -/
  | registrationFailed (server : PeerId) (failure : Failure)
  /-- A server did not take the registration. -/
  | registrationRefused (server : PeerId) (refusal : Refusal)
  /-- A server took the registration, and so many peers are known now. -/
  | registered (peer server : PeerId) (known : Nat)
  /-- An event is held back until the registration is over. -/
  | eventHeld (peer : PeerId) (type : MessageType)
  /-- The events that were held back have been applied. -/
  | heldEventsApplied (count : Nat)
  /-- Something older than what is known was passed over. -/
  | stale (peer : PeerId) (type : Option MessageType) (known incoming : Option Instant)
  /-- An event is about a peer that is not known. -/
  | unknownPeer (peer : PeerId) (type : MessageType)
  /-- A server did not carry out a command. -/
  | commandFailed (operation : String) (server : PeerId) (reason : Except Failure Int)
  /-- An event was applied. -/
  | updated (update : Update)
  /-- Nobody follows the directory. -/
  | updateUnheard (peer : PeerId)
  /-- A replay is asked for. -/
  | replayRequested (session : Uuid) (server : Option PeerId)
  /-- A message of another replay was passed over. -/
  | replayIgnored (type : MessageType) (session : Uuid) (phase : Phase)
  /-- The replay phase is over. -/
  | replayPhaseEnded (session : Uuid)
  /-- The safety phase is over. -/
  | safetyPhaseEnded (session : Uuid)
  /-- A message was passed over because it was delivered already. -/
  | duplicateSkipped (message : Uuid)
  /-- A message that was held back was refused. -/
  | heldDeliveryFailed (message : Uuid) (failure : Failure)
  /-- The messages that were held back were not all delivered in time. -/
  | workerLate (timeoutMs : Nat)
  /-- The delivery of the messages that were held back broke down. -/
  | workerBroken
  /-- There is nobody to deliver a message to. -/
  | noListener (message : Uuid) (type : MessageType)
  /-- The delivery of the messages that were held back has broken down before. -/
  | queueClosed (message : Uuid)
  /-- The persistence service is gone. -/
  | persistenceDown (peer : PeerId)
  /-- The persistence service has started, and so many messages wait for it. -/
  | persistenceUp (peer : PeerId) (waiting : Nat)
  /-- The persistence service is there, although its start was not heard of. -/
  | persistenceFound (waiting : Nat)
  /-- A message waits for the persistence service; so many wait now. -/
  | persistenceAwaited (message : Uuid) (type : MessageType) (waiting : Nat)
  /-- The messages that wait go on waiting. -/
  | flushPutOff (waiting : Nat)
  /-- The messages that wait are sent. -/
  | flushing (waiting : Nat) (server : PeerId)
  /-- A message could not be sent to the persistence service. -/
  | persistenceSendFailed (message : Uuid) (failure : Failure)
  /-- The persistence service is about to stop. -/
  | persistenceStopping (sender : PeerId)
  /-- So many peer updates were missed. -/
  | updatesMissed (count : Nat)
  /-- There will be no more peer updates. -/
  | updatesEnded
  /-- No peer handles a command. -/
  | noHandler (topic : Topic)

/-- The form in which a notice is reported. -/
structure Record where
  /-- The name of the event. -/
  event : String
  /-- How grave it is. -/
  level : Level
  /-- The part of the bus that reports it. -/
  component : String
  /-- The facts, by name. -/
  facts : List (String × String)

namespace Notice

/-- A fact that may be missing, as reports show it. -/
def maybe : Option String → String
  | some text => "Some(" ++ text ++ ")"
  | none => "None"

/-- A record of the directory client. -/
def ofDirectory (event : String) (level : Level) (facts : List (String × String)) : Record :=
  ⟨event, level, "directory_client", facts⟩

/-- A record of the transport that keeps messages. -/
def ofTransport (event : String) (level : Level) (facts : List (String × String)) : Record :=
  ⟨event, level, "persistent_transport", facts⟩

/-- The form in which a notice is reported. -/
def record : Notice → Record
  | registering peer servers =>
    ofDirectory "directory_register_start" .info
      [("peer_id", peer.text), ("directory_peers", Peer.addresses servers)]
  | registrationFailed server failure =>
    ofDirectory "directory_register_attempt_failed" .warn
      [("directory_peer", server.text), ("err", failure.message)]
  | registrationRefused server refusal =>
    ofDirectory "directory_register_rejected" .warn <|
      [("directory_peer", server.text), ("reason", refusal.name)] ++
        match refusal with
        | .code code => [("error_code", toString code)]
        | .noAnswer => []
  | registered peer server known =>
    ofDirectory "directory_register_ok" .info
      [("peer_id", peer.text), ("directory_peer", server.text), ("known_peers", toString known)]
  | eventHeld peer type =>
    ofDirectory "directory_event_buffered" .debug
      [("peer_id", peer.text), ("directory_event", type.name)]
  | heldEventsApplied count =>
    ofDirectory "directory_event_buffer_drained" .debug [("drained", toString count)]
  | stale peer type known incoming =>
    ofDirectory "directory_event_stale" .info <|
      [("peer_id", peer.text), ("known_timestamp", Instant.reportText known),
        ("incoming_timestamp", Instant.reportText incoming)] ++
        match type with
        | some type => [("directory_event", type.name)]
        | none => []
  | unknownPeer peer type =>
    ofDirectory "directory_event_unknown_peer" .debug
      [("peer_id", peer.text), ("directory_event", type.name)]
  | commandFailed operation server reason =>
    ofDirectory "directory_command_failed" .warn
      [("operation", operation), ("directory_peer", server.text),
        match reason with
        | .ok code => ("error_code", toString code)
        | .error failure => ("err", failure.message)]
  | updated update =>
    ofDirectory "directory_peer_updated" .debug
      [("peer_id", update.peer.text), ("action", update.action.name)]
  | updateUnheard peer =>
    ofDirectory "directory_peer_update_not_broadcast" .trace [("peer_id", peer.text)]
  | replayRequested session server =>
    ofTransport "replay_start" .info
      [("replay_id", session.text),
        ("persistence_peer", maybe (server.map fun id ↦ Quoted.text id.text))]
  | replayIgnored type session phase =>
    ofTransport "replay_event_ignored" .warn
      [("replay_event", type.name), ("replay_id", session.text),
        ("current_replay_id", maybe (phase.session.map Uuid.text)), ("phase", phase.name)]
  | replayPhaseEnded session =>
    ofTransport "replay_phase_ended" .info [("replay_id", session.text)]
  | safetyPhaseEnded session =>
    ofTransport "safety_phase_ended" .info [("replay_id", session.text)]
  | duplicateSkipped message =>
    ofTransport "safety_duplicate_skipped" .debug [("msg_id", message.text)]
  | heldDeliveryFailed message failure =>
    ofTransport "safety_delivery_failed" .error
      [("msg_id", message.text), ("err", failure.message)]
  | workerLate timeoutMs =>
    ofTransport "safety_worker_join_timeout" .error [("timeout", Span.text timeoutMs)]
  | workerBroken => ofTransport "safety_worker_join_timeout" .error [("err", "<panic>")]
  | noListener message type =>
    ofTransport "delivery_failed" .warn
      [("msg_id", message.text), ("msg_type", type.name), ("reason", "no_listener")]
  | queueClosed message =>
    ofTransport "delivery_failed" .error
      [("msg_id", message.text), ("reason", "pending_queue_closed")]
  | persistenceDown peer => ofTransport "persistence_down" .info [("peer_id", peer.text)]
  | persistenceUp peer waiting =>
    ofTransport "persistence_up" .info
      [("peer_id", peer.text), ("buffered", toString waiting)]
  | persistenceFound waiting =>
    ofTransport "persistence_up" .info [("buffered", toString waiting)]
  | persistenceAwaited message type waiting =>
    ofTransport "persistence_buffered" .debug
      [("msg_id", message.text), ("msg_type", type.name), ("buffered", toString waiting)]
  | flushPutOff waiting =>
    ofTransport "persistence_flush" .warn
      [("buffered", toString waiting), ("reason", "unresolved_persistence_peer")]
  | flushing waiting server =>
    ofTransport "persistence_flush" .info
      [("buffered", toString waiting), ("persistence_peer", server.text)]
  | persistenceSendFailed message failure =>
    ofTransport "persistence_send_failed" .warn
      [("msg_id", message.text), ("err", failure.message)]
  | persistenceStopping sender =>
    ofTransport "persistence_stopping" .info [("src", sender.text)]
  | updatesMissed count =>
    ofTransport "peer_update_loop_lagged" .warn [("skipped", toString count)]
  | updatesEnded => ofTransport "peer_update_loop_closed" .debug []
  | noHandler topic =>
    ⟨"routing_no_handler", .debug, "outbound_router",
      [("msg_type", topic.type.name), ("routing_key", topic.key.text)]⟩

end Notice

end ServiceBus
