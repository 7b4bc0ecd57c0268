import Mathlib.Data.Set.Basic
import ServiceBus.Proofs.Subscribers.Contents

/-!
# The searches agree with the matcher

A tree of subscribers is made by filing peers under patterns and taking them out again.  Beside the
tree stands the plain account of what was done: a set of ids with patterns, in which filing puts a
pair and taking out deletes it.  A pattern counts as one however its key is written, so the set
holds a pair for every key that writes the pattern.

`mem_ids_behind_performAll` says that the tree answers every routing key as the account does: with
each id once, and with exactly the ids that are recorded with a pattern that accepts the key.  The
three searches of the tree, of which two never call the matcher, play no part in the statement.
-/

set_option autoImplicit false

namespace ServiceBus

open Key (SamePattern)

/-- Something that is done to the subscribers of a message type. -/
inductive Filing
  /-- A peer is filed under a pattern. -/
  | add (p : PeerRef) (pattern : Key)
  /-- A peer is taken out from under a pattern. -/
  | remove (p : PeerRef) (pattern : Key)
deriving DecidableEq

namespace Filing

/-- What it does to the tree. -/
def perform (s : Subscribers) : Filing → Subscribers
  | add p pattern => s.add p pattern
  | remove p pattern => s.remove p pattern

/-- What it does to the account. -/
def record (stored : Set (PeerId × Key)) : Filing → Set (PeerId × Key)
  | add p pattern => stored ∪ {e | e.1 = p.id ∧ SamePattern pattern e.2}
  | remove p pattern => stored \ {e | e.1 = p.id ∧ SamePattern pattern e.2}

/-- The tree after all that was done, beginning with nobody. -/
def performAll (fs : List Filing) : Subscribers := fs.foldl perform .empty

/-- The account of all that was done. -/
def recordAll (fs : List Filing) : Set (PeerId × Key) := fs.foldl record ∅

/-! ## The tree follows the account -/

/-- A tree and an account hold the same ids under the same patterns. -/
structure Agrees (s : Subscribers) (stored : Set (PeerId × Key)) : Prop where
  /-- The tree is tidy. -/
  tidy : s.Tidy
  /-- The pairs of the account are those of the tree. -/
  mem_iff : ∀ id pattern, (id, pattern) ∈ stored ↔ s.HoldsId pattern id

theorem Agrees.step {s : Subscribers} {stored : Set (PeerId × Key)} (h : Agrees s stored)
    (f : Filing) : Agrees (f.perform s) (f.record stored) := by
  cases f with
  | add p k =>
    refine ⟨h.tidy.add p k, fun id pattern ↦ ?_⟩
    rw [perform, Subscribers.holdsId_add h.tidy, record, Set.mem_union, h.mem_iff,
      Set.mem_ofPred_eq]
  | remove p k =>
    refine ⟨h.tidy.remove p k, fun id pattern ↦ ?_⟩
    rw [perform, Subscribers.holdsId_remove h.tidy, record, Set.mem_sdiff, h.mem_iff,
      Set.mem_ofPred_eq]

theorem Agrees.foldl {s : Subscribers} {stored : Set (PeerId × Key)} (h : Agrees s stored)
    (fs : List Filing) : Agrees (fs.foldl perform s) (fs.foldl record stored) := by
  induction fs generalizing s stored with
  | nil => exact h
  | cons f fs ih => exact ih (h.step f)

theorem agrees_all (fs : List Filing) : Agrees (performAll fs) (recordAll fs) :=
  Agrees.foldl ⟨Subscribers.tidy_empty, by simp⟩ fs

/-! ## The searches follow the matcher -/

/-- **The tree answers as the account does.**  Whatever was filed and taken out, a routing key is
answered with each id once: with the ids that are recorded with a pattern that accepts the key, and
with all recorded ids if the key is empty. -/
theorem mem_ids_behind_performAll (fs : List Filing) (key : Key) :
    (((performAll fs).behind key).map PeerRef.id).Nodup ∧
      ∀ id, id ∈ ((performAll fs).behind key).map PeerRef.id ↔
        if key.isEmpty then ∃ pattern, (id, pattern) ∈ recordAll fs
        else ∃ pattern, (id, pattern) ∈ recordAll fs ∧ pattern.accepts key := by
  have h := agrees_all fs
  refine ⟨Subscribers.nodup_ids_behind _ key, fun id ↦ ?_⟩
  rw [Subscribers.mem_ids_behind h.tidy]
  simp only [h.mem_iff]
  split
  · next hempty =>
    simp only [hempty, true_or, and_true]
  · next hempty =>
    simp only [hempty, Bool.false_eq_true, false_or]

example :
    ((performAll
      [.add ⟨⟨"p"⟩, 0⟩ ⟨["a", "*", "c"], false⟩, .add ⟨⟨"q"⟩, 1⟩ ⟨["a", "#"], false⟩,
        .add ⟨⟨"r"⟩, 2⟩ ⟨["b"], false⟩, .add ⟨⟨"q"⟩, 1⟩ .empty]).behind
        (.ofJoined "a.b.c")).map (fun p ↦ p.id.text) = ["q", "p"] := by decide

end Filing

end ServiceBus
