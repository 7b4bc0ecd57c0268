import ServiceBus.Peer
import ServiceBus.Settings
import ServiceBus.Table

/-!
# The order in which directory servers are tried

The directory servers are tried in the order of the settings, or shuffled if the settings ask for
that.  A server that failed is put behind the others until its cooldown is over; of several such
servers, the one that failed first comes first.

The order that was chosen last is remembered, and a peer that leaves uses it again.
-/

set_option autoImplicit false

namespace ServiceBus.Directory

/-- The order of a list that belongs to a seed. -/
def shuffled {α : Type} (seed : Nat) : List α → List α
  | [] => []
  | a :: as => (shuffled (seed / (as.length + 1)) as).insertIdx (seed % (as.length + 1)) a

theorem shuffled_perm {α : Type} (seed : Nat) (as : List α) : (shuffled seed as).Perm as := by
  induction as generalizing seed with
  | nil => exact .nil
  | cons a as ih =>
    have hlen := (ih (seed / (as.length + 1))).length_eq
    have hlt : seed % (as.length + 1) < as.length + 1 := Nat.mod_lt _ (by omega)
    have hle : seed % (as.length + 1) ≤ (shuffled (seed / (as.length + 1)) as).length := by omega
    exact (List.perm_insertIdx a _ hle).trans ((ih _).cons a)

/-- The directory servers and what is known of their failures. -/
structure Servers where
  /-- The servers in the order of the settings. -/
  configured : List Peer
  /-- They are tried in a random order. -/
  random : Bool
  /-- How long a server that failed is put behind the others, in milliseconds. -/
  cooldownMs : Nat
  /-- When each server failed last, unless it answered since. -/
  faultySince : Table PeerId Nat := .empty
  /-- The order that was chosen last. -/
  selected : List Peer := []

namespace Servers

/-- The servers of the settings. -/
def ofSettings (s : Settings) : Servers where
  configured := s.directoryEndPoints.mapIdx fun i endPoint ↦ .live (.directory i) endPoint
  random := s.directoryPickedRandomly
  cooldownMs := s.faultyDirectoryCooldownMs

/-- When a server failed, if its cooldown is not over. -/
def coolingSince (s : Servers) (now : Nat) (id : PeerId) : Option Nat :=
  (s.faultySince.find? id).filter fun since ↦ now - since < s.cooldownMs

/-- The order in which to try the servers at a time. -/
def order (s : Servers) (now seed : Nat) : List Peer :=
  let candidates := if s.random then shuffled seed s.configured else s.configured
  let since (p : Peer) : Nat := (s.coolingSince now p.id).getD 0
  let (cooling, ready) := candidates.partition fun p ↦ (s.coolingSince now p.id).isSome
  ready ++ cooling.mergeSort fun p q ↦ since p ≤ since q

/-- Chooses an order. -/
def select (s : Servers) (now seed : Nat) : List Peer × Servers :=
  (s.order now seed, { s with selected := s.order now seed })

/-- The order that was chosen last, or a new one if none was chosen. -/
def reselect (s : Servers) (now seed : Nat) : List Peer × Servers :=
  if s.selected.isEmpty then s.select now seed else (s.selected, s)

/-- A server failed. -/
def markFaulty (s : Servers) (now : Nat) (id : PeerId) : Servers :=
  { s with faultySince := s.faultySince.insert id now }

/-- A server answered. -/
def clearFaulty (s : Servers) (id : PeerId) : Servers :=
  { s with faultySince := s.faultySince.erase id }

end Servers

end ServiceBus.Directory
