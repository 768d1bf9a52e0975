import FiniteReach.Automaton.Fault

/-!
# Reachability

An automaton is a graph with an edge from each state to each of its successors. `Search` explores
it breadth first. Each state is marked once and put at the end of one order, which is then worked
off from its front: the states that have left the frontier, and after them the frontier. So a search
leaves the frontier empty after at most as many steps as there are states. `reachable`
runs one up to its target, `closure` and `reachMarks` to its end.
-/

namespace FiniteReach

/-- A search under way. -/
structure Search (A : Automaton) where
  /-- Which states have been marked. -/
  visited : Vector Bool A.stateCount
  /-- The marked states in the order in which they were. -/
  order : Array (Fin A.stateCount)
  /-- How many states have left the frontier. -/
  left : Nat

namespace Search

variable {A : Automaton}

/-- The search that has seen nothing but its source. -/
def start (source : Fin A.stateCount) : Search A where
  visited := (Vector.replicate A.stateCount false).setIfInBounds source true
  order := #[source]
  left := 0

/-- The marked states whose successors have not been looked at, the longest waiting first. -/
def frontier (search : Search A) : List (Fin A.stateCount) := search.order.toList.drop search.left

/-- Marks a state and lets it wait, unless it was marked before. -/
def visit (search : Search A) (s : Fin A.stateCount) : Search A :=
  if search.visited.get s then search
  else { search with visited := search.visited.setIfInBounds s true, order := search.order.push s }

/-- Takes the longest waiting state off the frontier and visits its successors. -/
def advance (search : Search A) : Option (Fin A.stateCount × Search A) :=
  match search.order[search.left]? with
  | none => none
  | some s => some (s, (A.row s).foldl visit { search with left := search.left + 1 })

/-- Whether one of the next `fuel` states that leave the frontier is `target`. -/
def finds (target : Fin A.stateCount) : Nat → Search A → Bool
  | 0, _ => false
  | fuel + 1, search =>
    match search.advance with
    | none => false
    | some (s, rest) => s == target || rest.finds target fuel

/-- The search after `fuel` states have left the frontier, or all. -/
def exhaust : Nat → Search A → Search A
  | 0, search => search
  | fuel + 1, search =>
    match search.advance with
    | none => search
    | some (_, rest) => rest.exhaust fuel

/-- The marked states in ascending order. -/
def marked (search : Search A) : List Nat :=
  ((List.finRange A.stateCount).filter fun s => search.visited.get s).map Fin.val

end Search

namespace Automaton

/-- Whether edges lead from `s` to `t`. A state reaches itself; what is no state reaches nothing
and is not reached. -/
def reachable (A : Automaton) (s t : Nat) : Bool :=
  if s = t then A.hasState s
  else if h : s < A.stateCount ∧ t < A.stateCount then
    (Search.start ⟨s, h.1⟩).finds ⟨t, h.2⟩ A.stateCount
  else false

/-- Whether edges lead from `s` to `t`, or the first of the two that is no state. -/
def tryReachable (A : Automaton) (s t : Nat) : Except IndexFault Bool :=
  if A.hasState s then
    if A.hasState t then .ok (A.reachable s t) else .error (.state t A.stateCount)
  else .error (.state s A.stateCount)

/-- For each state whether it can be reached from `s`. -/
def reachMarks (A : Automaton) (s : Fin A.stateCount) : Vector Bool A.stateCount :=
  ((Search.start s).exhaust A.stateCount).visited

/-- The states that can be reached from `s`, in ascending order. -/
def closure (A : Automaton) (s : Nat) : Except IndexFault (List Nat) :=
  if h : s < A.stateCount then .ok ((Search.start ⟨s, h⟩).exhaust A.stateCount).marked
  else .error (.state s A.stateCount)

end Automaton

end FiniteReach
