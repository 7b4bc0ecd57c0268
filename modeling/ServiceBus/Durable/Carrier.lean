import ServiceBus.Notice

/-!
# The carrier

The carrier is what brings a message to peers, and what is told that a message was handled.  How it
does so is not the business of the bus; what matters is what it was given, and whether it failed.  A
carrier is therefore a record of what it was given, with a plan of what will fail.

`Outside` is what the parts of the bus act upon: the carrier, the source of fresh ids, and those who
take notice.
-/

set_option autoImplicit false

namespace ServiceBus.Durable

/-- A message that the carrier was given for some peers. -/
structure Parcel where
  /-- The message. -/
  message : Envelope
  /-- The peers, as they were known then. -/
  targets : List Peer
  /-- The carrier failed. -/
  failed : Bool
deriving DecidableEq

/-- A carrier. -/
structure Carrier where
  /-- The types of messages that it fails to send. -/
  refused : List MessageType := []
  /-- It fails to tell that messages were handled. -/
  refusesAcks : Bool := false
  /-- Whether it fails at the coming sends, one after the other; after these the type decides. -/
  verdicts : List Bool := []
  /-- What it was given, oldest first. -/
  parcels : List Parcel := []
  /-- The messages that it was to tell were handled, oldest first. -/
  acked : List Uuid := []

namespace Carrier

/-- Whether the next send fails, for a message of the given type. -/
def fails (c : Carrier) (type : MessageType) : Bool :=
  match c.verdicts with
  | verdict :: _ => verdict
  | [] => c.refused.contains type

/-- Sends a message to peers. -/
def send (c : Carrier) (message : Envelope) (targets : List Peer) :
    Except Failure Unit × Carrier :=
  let failed := c.fails message.type
  let c := { c with
    verdicts := c.verdicts.tail
    parcels := c.parcels ++ [⟨message, targets, failed⟩] }
  (if failed then .error (.transport ("cannot send " ++ message.type.name)) else .ok (), c)

/-- Tells that a message was handled. -/
def ack (c : Carrier) (message : Envelope) : Except Failure Unit × Carrier :=
  (if c.refusesAcks then .error (.transport "cannot ack") else .ok (),
    { c with acked := c.acked ++ [message.id] })

end Carrier

/-- What the parts of the bus act upon. -/
structure Outside where
  /-- The carrier. -/
  carrier : Carrier := {}
  /-- How many fresh ids were given. -/
  ids : Nat := 0
  /-- The notices that were given, oldest first. -/
  notices : List Notice := []

namespace Outside

/-- Gives a notice. -/
def note (o : Outside) (notice : Notice) : Outside := { o with notices := o.notices ++ [notice] }

/-- Gives notices. -/
def noteAll (o : Outside) (notices : List Notice) : Outside :=
  { o with notices := o.notices ++ notices }

/-- A fresh id. -/
def fresh (o : Outside) : Uuid × Outside := (.fresh o.ids, { o with ids := o.ids + 1 })

/-- Sends a message. -/
def send (o : Outside) (message : Envelope) (targets : List Peer) :
    Except Failure Unit × Outside :=
  let (result, carrier) := o.carrier.send message targets
  (result, { o with carrier })

/-- Tells that a message was handled. -/
def ack (o : Outside) (message : Envelope) : Except Failure Unit × Outside :=
  let (result, carrier) := o.carrier.ack message
  (result, { o with carrier })

end Outside

end ServiceBus.Durable
