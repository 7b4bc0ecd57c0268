import ServiceBus.Key.Matching

/-!
# Subscriptions

A message is addressed by its *topic*: its type and its routing key.  A subscription asks for the
messages of one type whose routing key a pattern accepts.
-/

set_option autoImplicit false

namespace ServiceBus

/-- The full name of a message type. -/
structure MessageType where
  /-- The dotted full name. -/
  name : String
deriving DecidableEq, Repr, Inhabited

/-- What a message is routed by. -/
structure Topic where
  /-- The type of the message. -/
  type : MessageType
  /-- The routing key of the message. -/
  key : Key
deriving DecidableEq, Repr, Inhabited

/-- Interest in the messages of one type whose routing key a pattern accepts. -/
structure Subscription where
  /-- The type asked for. -/
  type : MessageType
  /-- The pattern on routing keys. -/
  pattern : Key
deriving DecidableEq, Repr, Inhabited

namespace Subscription

/-- Every message of a type. -/
def toAll (type : MessageType) : Subscription := ⟨type, .empty⟩

/-- Whether the subscription asks for every message of its type. -/
def isToAll (s : Subscription) : Bool := s.pattern.isEmpty

/-- Whether the subscription asks for messages of this topic. -/
def accepts (s : Subscription) (topic : Topic) : Bool :=
  topic.type = s.type && s.pattern.accepts topic.key

/-- The order in which subscriptions are listed: by type, then by dotted text.  Patterns with one
dotted text are told apart by being joined and by their tokens. -/
def listedBefore (s s' : Subscription) : Bool :=
  let tie (k k' : Key) : Ordering :=
    (compare k.text k'.text).then ((compare k.joined k'.joined).then (compare k.parts k'.parts))
  ((compare s.type.name s'.type.name).then (tie s.pattern s'.pattern)).isLE

/-- Neither the types nor the dotted texts tell the subscriptions apart. -/
def ties (s s' : Subscription) : Bool :=
  s.type = s'.type && s.pattern.text = s'.pattern.text

/-- The subscriptions in the order that they have, except that neighbours that tie are put in the
order in which subscriptions are listed. -/
def listTies (subscriptions : List Subscription) : List Subscription :=
  (subscriptions.splitBy ties).flatMap fun run ↦ run.mergeSort listedBefore

end Subscription

end ServiceBus
