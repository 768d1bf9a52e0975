import FiniteReach.Proofs.BreadthFirst
import FiniteReach.Proofs.Composition

/-!
# Searches on the machine

On the machine a row is a slice of the table, and a search marks states in an array and keeps its
frontier in a queue. `Scratch.of` is what the machine holds while a search is under way, and
whatever the search does, the machine does as well, without a trap (`advance_of`). So the rounds of
its loops are those of the search (`seekRound_of`, `drainRound_of`).
-/

namespace FiniteReach.Machine

variable {A : Automaton}

/-! ## Rows -/

/-- The successors of a state, symbol by symbol. -/
def successors (A : Automaton) (s : Nat) : Option (List Nat) := do
  let start ← word? (s * A.alphabetSize)
  let stop ← word? (start + A.alphabetSize)
  slice? A.table start stop

theorem successors_eq (s : Fin A.stateCount) :
    successors A s = some ((A.row s).map Fin.val) := by
  have hstop : s.1 * A.alphabetSize + A.alphabetSize ≤ A.stateCount * A.alphabetSize := by
    rw [← Nat.succ_mul]
    exact Nat.mul_le_mul_right _ s.2
  have hlimit := Nat.lt_of_le_of_lt hstop A.size_lt
  have hslice : slice? A.table (s.1 * A.alphabetSize) (s.1 * A.alphabetSize + A.alphabetSize) =
      A.row? s := by
    rw [slice?, Automaton.row?]
    simp only [Nat.le_add_right, true_and]
  rw [successors, word?_of_lt (Nat.lt_of_le_of_lt (Nat.le_add_right _ _) hlimit)]
  show (word? _ >>= fun stop => slice? A.table _ stop) = _
  rw [word?_of_lt hlimit, ← Automaton.row?_eq]
  exact hslice

/-! ## What a search works with -/

/-- The marks of a search and its frontier. -/
structure Scratch where
  /-- For each state whether it has been marked. -/
  visited : Array Bool
  /-- The states that wait, the longest waiting first. -/
  frontier : List Nat

namespace Scratch

/-- The scratch space of a search that has seen nothing but its source. -/
def start (A : Automaton) (source : Nat) : Option Scratch := do
  let visited ← put? (Array.replicate A.stateCount false) source true
  return ⟨visited, [source]⟩

/-- Marks a state and lets it wait, unless it was marked before. -/
def visit (scratch : Scratch) (s : Nat) : Option Scratch := do
  if ← scratch.visited[s]? then
    return scratch
  let visited ← put? scratch.visited s true
  return ⟨visited, scratch.frontier ++ [s]⟩

/-- Takes the longest waiting state off the frontier and visits its successors. -/
def advance (A : Automaton) (scratch : Scratch) : Option (Option (Nat × Scratch)) :=
  match scratch.frontier with
  | [] => some none
  | s :: frontier => do
    let row ← successors A s
    let rest ← row.foldlM visit { scratch with frontier }
    return some (s, rest)

/-- A round of the loop that looks for a target among the states that are taken. -/
def seekRound (A : Automaton) (target : Nat) (scratch : Scratch) :
    Option (Round Scratch Bool) := do
  match ← scratch.advance A with
  | none => return .done false
  | some (s, rest) => return if s = target then .done true else .again rest

/-- A round of the loop that works a search off. -/
def drainRound (A : Automaton) (scratch : Scratch) : Option (Round Scratch Scratch) := do
  match ← scratch.advance A with
  | none => return .done scratch
  | some (_, rest) => return .again rest

/-- The marked states in ascending order. -/
def marked (scratch : Scratch) : List Nat :=
  scratch.visited.toList.zipIdx.filterMap fun (seen, s) => if seen then some s else none

/-- What the machine holds of a search. -/
def of (search : Search A) : Scratch :=
  ⟨search.visited.toArray, search.frontier.map Fin.val⟩

variable {search rest : Search A} {s : Fin A.stateCount}

/-! ## One step -/

theorem start_eq (source : Fin A.stateCount) :
    start A source = some (of (Search.start source)) := by
  have hsize : source.1 < (Array.replicate A.stateCount false).size := by
    rw [Array.size_replicate]
    exact source.2
  rw [start, put?, if_pos hsize]
  rfl

theorem left_visit (s : Fin A.stateCount) : (search.visit s).left = search.left := by
  rw [Search.visit]
  split
  · rfl
  · rfl

theorem left_le_visit (h : search.left ≤ search.order.toList.length) (s : Fin A.stateCount) :
    (search.visit s).left ≤ (search.visit s).order.toList.length := by
  rw [left_visit, Search.order_visit]
  split
  · exact h
  · rw [List.length_append]
    exact Nat.le_add_right_of_le h

theorem visit_of (h : search.left ≤ search.order.toList.length) (s : Fin A.stateCount) :
    (of search).visit s = some (of (search.visit s)) := by
  have hseen : (of search).visited[s.1]? = some (search.visited.get s) :=
    Array.getElem?_eq_getElem _
  have hput : put? (of search).visited s.1 true =
      some (search.visited.setIfInBounds s true).toArray :=
    if_pos (search.visited.size_toArray.symm ▸ s.2)
  have hwait : ((search.order.push s).toList.drop search.left).map Fin.val =
      (of search).frontier ++ [s.1] := by
    rw [Array.toList_push, List.drop_append_of_le_length h, List.map_append]
    rfl
  rw [visit, Search.visit]
  simp only [hseen, hput, Option.bind_eq_bind, Option.bind_some]
  split
  · rfl
  · exact congrArg (fun frontier => some (Scratch.mk _ frontier)) hwait.symm

theorem foldlM_visit (states : List (Fin A.stateCount)) (search : Search A)
    (h : search.left ≤ search.order.toList.length) :
    (states.map Fin.val).foldlM visit (of search) =
      some (of (states.foldl Search.visit search)) := by
  induction states generalizing search with
  | nil => rfl
  | cons s states ih =>
      rw [List.map_cons, List.foldlM_cons, visit_of h]
      exact ih _ (left_le_visit h s)

theorem advance_of (search : Search A) :
    (of search).advance A = some (search.advance.map fun (s, rest) => (s.1, of rest)) := by
  rw [Search.advance]
  cases hs : search.order[search.left]? with
  | none =>
      have hfrontier : search.frontier = [] := by
        rw [Search.frontier, List.drop_eq_nil_iff, Array.length_toList]
        exact Array.getElem?_eq_none_iff.1 hs
      rw [advance, of, hfrontier]
      rfl
  | some s =>
      obtain ⟨hlt, hs⟩ := Array.getElem?_eq_some_iff.1 hs
      have hfrontier : search.frontier = s :: search.order.toList.drop (search.left + 1) := by
        rw [Search.frontier, List.drop_eq_getElem_cons (by rwa [Array.length_toList]),
          Array.getElem_toList, hs]
      -- The successors are visited when the state has left the frontier, so `left` counts it.
      have hvisit : ((A.row s).map Fin.val).foldlM visit ⟨search.visited.toArray,
          (search.order.toList.drop (search.left + 1)).map Fin.val⟩ = some (of _) :=
        foldlM_visit (A.row s) { search with left := search.left + 1 }
          (by rwa [Array.length_toList])
      rw [advance, of, hfrontier]
      simp only [List.map_cons, successors_eq, hvisit, Option.bind_eq_bind, Option.bind_some]
      rfl

/-! ## Loops -/

theorem seekRound_of (target : Fin A.stateCount) (search : Search A) :
    seekRound A target (of search) = (search.seekRound target).map (Round.map of id) := by
  rw [seekRound, advance_of, Search.seekRound]
  cases search.advance with
  | none => rfl
  | some step =>
      obtain ⟨s, rest⟩ := step
      by_cases hs : s = target
      · simp [hs, Round.map]
      · simp [hs, Fin.val_inj, Round.map]

theorem drainRound_of (search : Search A) :
    drainRound A (of search) = search.drainRound.map (Round.map of of) := by
  rw [drainRound, advance_of, Search.drainRound]
  cases search.advance with
  | none => rfl
  | some step => rfl

theorem zipIdx_visited (search : Search A) : (of search).visited.toList.zipIdx =
    (List.finRange A.stateCount).map fun s => (search.visited.get s, s.1) := by
  refine List.ext_getElem (by simp [of]) fun i hi _ => ?_
  rw [List.getElem_zipIdx, List.getElem_map, List.getElem_finRange, Nat.zero_add]
  rfl

theorem marked_of (search : Search A) : (of search).marked = search.marked := by
  rw [marked, zipIdx_visited, List.filterMap_map, Search.marked, ← List.filterMap_eq_filter,
    List.map_filterMap]
  refine List.filterMap_congr fun s _ => ?_
  cases hs : search.visited.get s <;> simp [hs, Option.guard]

end Scratch

/-! ## Reachability -/

/-- Whether edges lead from `s` to `t`. -/
noncomputable def reachable (A : Automaton) (s t : Nat) : Option Bool :=
  if s = t then return A.hasState s
  else if A.hasState s && A.hasState t then do
    loop (Scratch.seekRound A t) (← Scratch.start A s)
  else return false

theorem reachable_eq (A : Automaton) (s t : Nat) : reachable A s t = some (A.reachable s t) := by
  rw [reachable]
  split
  · next hst => rw [Automaton.reachable, if_pos hst]; rfl
  · next hst =>
      split
      · next hstates =>
          obtain ⟨hs, ht⟩ := (Bool.and_eq_true _ _).mp hstates
          have hs : s < A.stateCount := of_decide_eq_true hs
          have ht : t < A.stateCount := of_decide_eq_true ht
          have hloop := loop_map (Scratch.seekRound_of ⟨t, ht⟩)
            (Automaton.loop_seekRound_start ⟨s, hs⟩ ⟨t, ht⟩)
          rw [Scratch.start_eq ⟨s, hs⟩]
          exact hloop
      · next hstates =>
          have hnot : ¬ (s < A.stateCount ∧ t < A.stateCount) := by
            simpa [Automaton.hasState] using hstates
          rw [Automaton.reachable, if_neg hst, dif_neg hnot]
          rfl

end FiniteReach.Machine
