import ServiceBus.Table
import ServiceBus.Peer
import ServiceBus.Subscription

/-!
# Rotation

A command goes to one of the peers that handle it, and the handlers of a command type take turns.
Peers that are up and responding are preferred; when there is none, every handler is a candidate,
so that the command still goes somewhere.  One turn counter is kept per command type.  It counts
only the picks among at least two handlers, and starts again from zero after `2 ^ 64` of them.
-/

set_option autoImplicit false

namespace ServiceBus

/-- Whose turn it is, for each command type. -/
structure Rotation where
  /-- The number of turns taken. -/
  turns : Table MessageType Nat := .empty
deriving Inhabited

namespace Rotation

/-- The number of turns after which a counter starts again. -/
def period : Nat := 0x10000000000000000

/-- The turns taken for a type. -/
def turn (r : Rotation) (type : MessageType) : Nat := (r.turns.find? type).getD 0

/-- The handlers that may get the next command: the live ones, or all when none is live. -/
def candidates (isLive : PeerRef → Bool) (handlers : List PeerRef) : List PeerRef :=
  let live := handlers.filter isLive
  if live.isEmpty then handlers else live

/-- Picks the handler whose turn it is.  A single handler is picked without taking a turn. -/
def pick (r : Rotation) (isLive : PeerRef → Bool) (type : MessageType) (handlers : List PeerRef) :
    Option PeerRef × Rotation :=
  match handlers with
  | [] => (none, r)
  | [only] => (some only, r)
  | _ =>
    let cs := candidates isLive handlers
    (cs[r.turn type % cs.length]?, ⟨r.turns.insert type ((r.turn type + 1) % period)⟩)

theorem candidates_ne_nil (isLive : PeerRef → Bool) {handlers : List PeerRef}
    (h : handlers ≠ []) : candidates isLive handlers ≠ [] := by
  simp only [candidates]
  split
  · exact h
  · next hl => simpa using hl

theorem turn_insert (r : Rotation) (type type' : MessageType) (n : Nat) :
    turn ⟨r.turns.insert type' n⟩ type = if type = type' then n else r.turn type := by
  simp only [turn, Table.find?_insert]
  split <;> rfl

end Rotation

end ServiceBus
