import ServiceBus.Catalogue
import ServiceBus.Descriptor
import ServiceBus.Directory.Client
import ServiceBus.Directory.Feed
import ServiceBus.Directory.Index
import ServiceBus.Directory.Interests
import ServiceBus.Directory.Protocol
import ServiceBus.Directory.Registry
import ServiceBus.Directory.Servers
import ServiceBus.Directory.Stamps
import ServiceBus.Directory.Update
import ServiceBus.Directory.View
import ServiceBus.Durable.Carrier
import ServiceBus.Durable.Outbox
import ServiceBus.Durable.Phase
import ServiceBus.Durable.Protocol
import ServiceBus.Durable.Reception
import ServiceBus.Durable.Transport
import ServiceBus.Envelope
import ServiceBus.Failure
import ServiceBus.Instant
import ServiceBus.Instant.Text
import ServiceBus.Json
import ServiceBus.Json.Escape
import ServiceBus.Json.Form
import ServiceBus.Json.Lexer
import ServiceBus.Json.Relaxed
import ServiceBus.Json.Token
import ServiceBus.Key
import ServiceBus.Key.Matching
import ServiceBus.Notice
import ServiceBus.Peer
import ServiceBus.Rotation
import ServiceBus.Router
import ServiceBus.Samples
import ServiceBus.Settings
import ServiceBus.Simulation.Acts
import ServiceBus.Simulation.World
import ServiceBus.Subscribers
import ServiceBus.Subscribers.Trie
import ServiceBus.Subscription
import ServiceBus.Table
import ServiceBus.Text.Blank
import ServiceBus.Text.Digits
import ServiceBus.Text.Hidden
import ServiceBus.Text.Letter
import ServiceBus.Text.Octets
import ServiceBus.Text.Quoted
import ServiceBus.Text.Ranges
import ServiceBus.Text.Span
import ServiceBus.Uuid
import ServiceBus.Wire
import ServiceBus.Proofs.Key.Joining
import ServiceBus.Proofs.Subscribers.Agreement
import ServiceBus.Proofs.Directory.Chronicle
import ServiceBus.Proofs.Directory.Changes
import ServiceBus.Proofs.Directory.Deeds
import ServiceBus.Proofs.Directory.Runs
import ServiceBus.Proofs.Directory.Delivery
import ServiceBus.Proofs.Directory.Registration
import ServiceBus.Proofs.Directory.Effects
import ServiceBus.Proofs.Directory.Consent
import ServiceBus.Proofs.Directory.Statuses
import ServiceBus.Proofs.Directory.Acceptance
import ServiceBus.Proofs.Directory.Answers
import ServiceBus.Proofs.Directory.Lateness
import ServiceBus.Proofs.Directory.Holding
import ServiceBus.Proofs.Directory.Convergence
import ServiceBus.Proofs.Directory.Presentations
import ServiceBus.Proofs.Directory.Remains
import ServiceBus.Proofs.Directory.TypeReplacements
import ServiceBus.Proofs.Directory.Repetition
import ServiceBus.Proofs.Directory.FullSets
import ServiceBus.Proofs.Directory.FailedUpdates
import ServiceBus.Proofs.Directory.Overlaps
import ServiceBus.Proofs.Directory.Instances
import ServiceBus.Proofs.Directory.Independence
import ServiceBus.Proofs.Directory.Timestamps
import ServiceBus.Proofs.Directory.Relisting
import ServiceBus.Proofs.Directory.Commands
import ServiceBus.Proofs.Directory.FailOver
import ServiceBus.Proofs.Directory.Standing
import ServiceBus.Proofs.Directory.Ascent
import ServiceBus.Proofs.Directory.Selection
import ServiceBus.Proofs.Directory.Pruning
import ServiceBus.Proofs.Durable.Session
import ServiceBus.Proofs.Durable.Cutover
import ServiceBus.Proofs.Durable.Traffic
import ServiceBus.Proofs.Durable.Handling
import ServiceBus.Proofs.Durable.Conservation
import ServiceBus.Proofs.Durable.Duplicates
import ServiceBus.Proofs.Durable.Refusals
import ServiceBus.Proofs.Durable.Pleas
import ServiceBus.Proofs.Durable.Rejoining
import ServiceBus.Proofs.Durable.Mirroring
import ServiceBus.Proofs.Durable.Liaison
import ServiceBus.Proofs.Directory.Publication
import ServiceBus.Proofs.Durable.Backlog
import ServiceBus.Proofs.Durable.Resync
import ServiceBus.Proofs.Durable.Precedence
import ServiceBus.Proofs.Durable.Course
import ServiceBus.Proofs.Durable.Queue
import ServiceBus.Proofs.Durable.Restart
import ServiceBus.Proofs.Durable.Interruption
import ServiceBus.Proofs.Wire.Digits
import ServiceBus.Proofs.Wire.Instants
import ServiceBus.Proofs.Wire.Tokens
import ServiceBus.Proofs.Wire.Values
import ServiceBus.Proofs.Wire.Forms
import ServiceBus.Proofs.Wire.Messages
import ServiceBus.Proofs.Routing.Turns
import ServiceBus.Proofs.Routing.Targets
