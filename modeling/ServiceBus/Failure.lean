import ServiceBus.Text.Span

/-!
# Failures

Every way in which an operation of the bus fails is a cause with the facts that its text names.
`Failure.message` is that text.  A text that cannot be read is a failure without further facts.
-/

set_option autoImplicit false

namespace ServiceBus

/-- Why an operation failed. -/
inductive Failure
  /-- No directory server took the registration within the time each was given. -/
  | registrationTimeout (tried : String) (timeoutMs : Nat)
  /-- No directory server took a command. -/
  | directoryUnreachable (operation tried : String)
  /-- The peer is not registered. -/
  | notRegistered
  /-- The persistence service did not begin its replay in time. -/
  | persistenceUnreachable (timeoutMs : Nat)
  /-- A message could not be sent, acknowledged or handled. -/
  | transport (detail : String)
  /-- A body or a text is not a form of the type asked for. -/
  | serialization
  /-- The settings cannot be used. -/
  | configuration (detail : String)
  /-- A message is of another type than the one asked for. -/
  | unexpectedType (expected actual : String)
  /-- There is no later instant to give out: the operation is broken off in the middle. -/
  | endOfTime
deriving DecidableEq, Repr

namespace Failure

/-- The text of a failure. -/
def message : Failure → String
  | registrationTimeout tried timeoutMs =>
    "unable to register peer on directory (tried: " ++ tried ++ ") after " ++ Span.text timeoutMs
  | directoryUnreachable operation tried =>
    "unable to " ++ operation ++ " on directory (tried: " ++ tried ++ ")"
  | notRegistered => "peer is not registered on the directory"
  | persistenceUnreachable timeoutMs =>
    "persistence service unreachable: no replay event received after " ++ Span.text timeoutMs
  | transport detail => "transport error: " ++ detail
  | serialization => "serialization failed"
  | configuration detail => "invalid configuration: " ++ detail
  | unexpectedType expected actual =>
    "unexpected message type: expected " ++ expected ++ ", got " ++ actual
  | endOfTime => "no later instant can be represented"

end Failure

end ServiceBus
