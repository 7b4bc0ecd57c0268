import ServiceBus.Key.Matching
import ServiceBus.Peer

/-!
# The pattern trie

Patterns share their leading tokens, so the peers behind them are kept in a trie: one branch per
token, with the peers whose pattern ends there.  A trie is written here as a forest of sibling
branches, in which a branch is followed by the ones beside it; that keeps it an ordinary inductive
type, and every walk is a structural recursion.

Siblings are kept with the branch of `#` first, then that of `*`, then the others in the order in
which they came.  A search that lists what it meets along the siblings therefore names the peers
behind `#` before those behind `*`, and those before the ones behind the token itself.

Branches are never taken away: a removal only empties the list at the end of its path.
-/

set_option autoImplicit false

namespace ServiceBus

/-! ## Lists of peers without repetition -/

/-- Puts a peer at the end of a list, unless one with its id is there. -/
def enlist (p : PeerRef) (l : List PeerRef) : List PeerRef :=
  if l.any fun q ↦ q.id = p.id then l else l ++ [p]

/-- Takes the peers with the id of `p` out of a list. -/
def delist (p : PeerRef) (l : List PeerRef) : List PeerRef := l.filter fun q ↦ q.id ≠ p.id

/-- Keeps the first peer of each id. -/
def firstOfEachId (l : List PeerRef) : List PeerRef := l.foldl (fun acc p ↦ enlist p acc) []

/-! ## The trie -/

/-- Sibling branches, each with the peers whose pattern ends in it and the branches below it. -/
inductive Trie
  | nil
  | branch (token : String) (here : List PeerRef) (below beside : Trie)
deriving DecidableEq, Repr, Inhabited

namespace Trie

/-- The place of a token among siblings: `#`, then `*`, then the rest. -/
def rank (token : String) : Nat :=
  if token = Key.sharp then 0 else if token = Key.star then 1 else 2

/-- The single path that holds one peer at its end. -/
def path (p : PeerRef) : List String → Trie
  | [] => nil
  | [token] => branch token [p] nil nil
  | token :: tokens => branch token [] (path p tokens) nil

/-- Files a peer under a pattern.  The pattern without tokens has no place in a trie. -/
def add (p : PeerRef) : Trie → List String → Trie
  | t, [] => t
  | nil, tokens => path p tokens
  | branch t here below beside, token :: tokens =>
    if t = token then
      if tokens = [] then branch t (enlist p here) below beside
      else branch t here (add p below tokens) beside
    else if rank token < rank t then
      match path p (token :: tokens) with
      | branch t' here' below' _ => branch t' here' below' (branch t here below beside)
      | nil => branch t here below beside
    else branch t here below (add p beside (token :: tokens))

/-- Takes a peer out from under a pattern. -/
def remove (p : PeerRef) : Trie → List String → Trie
  | t, [] => t
  | nil, _ => nil
  | branch t here below beside, token :: tokens =>
    if t = token then
      if tokens = [] then branch t (delist p here) below beside
      else branch t here (remove p below tokens) beside
    else branch t here below (remove p beside (token :: tokens))

/-- Every peer of the trie, in the order of a walk that goes down before it goes on. -/
def all : Trie → List PeerRef
  | nil => []
  | branch _ here below beside => here ++ all below ++ all beside

/-- The peers behind the patterns that accept a routing key in tokens. -/
def find : Trie → List String → List PeerRef
  | nil, _ => []
  | branch .., [] => []
  | branch t here below beside, token :: tokens =>
    (if t = Key.sharp then here ++ all below
     else if t = Key.star ∨ t = token then
       if tokens = [] then here else find below tokens
     else []) ++ find beside (token :: tokens)

/-- The peers behind the patterns that accept a joined key.  The text cannot be walked token by
token, so each pattern is put together again on the way down and tried. -/
def findJoined (key : Key) : Trie → List String → List PeerRef
  | nil, _ => []
  | branch t here below beside, above =>
    (if Key.accepts ⟨above ++ [t], false⟩ key then here else []) ++
      findJoined key below (above ++ [t]) ++ findJoined key beside above

/-- No branch holds a peer. -/
def isEmpty : Trie → Bool
  | nil => true
  | branch _ here below beside => here.isEmpty && isEmpty below && isEmpty beside

theorem isEmpty_iff_all_eq_nil (t : Trie) : t.isEmpty = true ↔ t.all = [] := by
  induction t with
  | nil => simp [isEmpty, all]
  | branch t here below beside ihb ihs => simp [isEmpty, all, ihb, ihs, and_assoc]

end Trie

end ServiceBus
