import FiniteReach.Word

/-!
# Deterministic automata

An automaton has the states `0, …, stateCount - 1` and the symbols `0, …, alphabetSize - 1`, an
initial state, a set of final states and a total transition function. The table holds the function
state by state: the successor of `s` on `a` stands at `s * alphabetSize + a`. What makes a table a
function is part of the type, so `next` needs no check. An alphabet may be empty, a set of states
may not, because it holds the initial state.
-/

namespace FiniteReach

/-- A total deterministic finite automaton. -/
@[ext]
structure Automaton where
  /-- How many symbols there are. -/
  alphabetSize : Nat
  /-- How many states there are. -/
  stateCount : Nat
  /-- Where every run starts. -/
  initial : Nat
  /-- The final states, in ascending order and each once. -/
  finals : List Nat
  /-- The successors, state by state and within a state symbol by symbol. -/
  table : Array Nat
  initial_lt : initial < stateCount
  finals_lt : ∀ f ∈ finals, f < stateCount
  finals_ascending : finals.Pairwise (· < ·)
  size_table : table.size = stateCount * alphabetSize
  target_lt : ∀ t ∈ table, t < stateCount
  stateCount_lt : stateCount < limit
  size_lt : stateCount * alphabetSize < limit
  deriving DecidableEq

/-! ## The cells of a table -/

/-- The cell of symbol `a` in the row of state `s` lies within a table of `n` rows. -/
theorem cell_lt {n k s a : Nat} (hs : s < n) (ha : a < k) : s * k + a < n * k := by
  have h : (s + 1) * k ≤ n * k := Nat.mul_le_mul_right k hs
  rw [Nat.add_mul] at h
  omega

/-- The row of a cell. -/
theorem div_lt_of_cell {n k i : Nat} (h : i < n * k) : i / k < n :=
  Nat.div_lt_of_lt_mul (Nat.mul_comm n k ▸ h)

/-- The column of a cell; a table with a cell has a column. -/
theorem mod_lt_of_cell {n k i : Nat} (h : i < n * k) : i % k < k :=
  Nat.mod_lt _ (Nat.pos_of_mul_pos_left (Nat.zero_lt_of_lt h))

/-! ## Marking numbers -/

@[simp] theorem get_replicate {n : Nat} (b : Bool) (i : Fin n) :
    (Vector.replicate n b).get i = b := Vector.getElem_replicate i.2

theorem get_setIfInBounds {n : Nat} (marks : Vector Bool n) (m : Nat) (b : Bool) (i : Fin n) :
    (marks.setIfInBounds m b).get i = if m = i.1 then b else marks.get i :=
  Vector.getElem_setIfInBounds i.2

theorem get_foldl_mark {n : Nat} (members : List Nat) (marks : Vector Bool n) (i : Fin n) :
    (members.foldl (fun marks m => marks.setIfInBounds m true) marks).get i =
      (marks.get i || members.contains i.1) := by
  induction members generalizing marks with
  | nil => simp
  | cons m rest ih =>
    rw [List.foldl_cons, ih]
    simp only [get_setIfInBounds, List.contains_cons]
    grind

namespace Automaton

/-! ## Reading the table -/

/-- The successor of a state on a symbol. -/
def next (A : Automaton) (s : Fin A.stateCount) (a : Fin A.alphabetSize) : Fin A.stateCount :=
  have h : s.1 * A.alphabetSize + a.1 < A.table.size := A.size_table ▸ cell_lt s.2 a.2
  ⟨A.table[s.1 * A.alphabetSize + a.1], A.target_lt _ (Array.getElem_mem h)⟩

/-- The successors of a state, symbol by symbol. -/
def row (A : Automaton) (s : Fin A.stateCount) : List (Fin A.stateCount) :=
  (List.finRange A.alphabetSize).map (A.next s)

/-- The row that starts at cell `s * alphabetSize`, if it lies within the table. Over an empty
alphabet the empty row starts anywhere. -/
def row? (A : Automaton) (s : Nat) : Option (List Nat) :=
  if s * A.alphabetSize + A.alphabetSize ≤ A.table.size then
    some (A.table.extract (s * A.alphabetSize) (s * A.alphabetSize + A.alphabetSize)).toList
  else none

/-- All rows, state by state. -/
def rows (A : Automaton) : List (List Nat) :=
  (List.finRange A.stateCount).map fun s => (A.row s).map Fin.val

/-- All transitions as source, symbol and target, in the order of the table. -/
def transitions (A : Automaton) : List (Nat × Nat × Nat) :=
  (List.finRange (A.stateCount * A.alphabetSize)).map fun cell =>
    let source : Fin A.stateCount := ⟨cell.1 / A.alphabetSize, div_lt_of_cell cell.2⟩
    let symbol : Fin A.alphabetSize := ⟨cell.1 % A.alphabetSize, mod_lt_of_cell cell.2⟩
    (source.1, symbol.1, (A.next source symbol).1)

/-- Whether there is such a state. -/
def hasState (A : Automaton) (s : Nat) : Bool := s < A.stateCount

/-- Whether a state is final. -/
def isFinal (A : Automaton) (s : Nat) : Bool := A.finals.contains s

/-- For each state whether it is final. -/
def finalMarks (A : Automaton) : Vector Bool A.stateCount :=
  A.finals.foldl (fun marks f => marks.setIfInBounds f true) (Vector.replicate A.stateCount false)

@[simp] theorem get_finalMarks (A : Automaton) (s : Fin A.stateCount) :
    A.finalMarks.get s = A.isFinal s := by
  rw [finalMarks, get_foldl_mark]
  simp [isFinal]

end Automaton

end FiniteReach
