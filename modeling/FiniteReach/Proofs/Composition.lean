import FiniteReach.Collect
import FiniteReach.Proofs.Builder
import FiniteReach.Proofs.Run

/-!
# Runs one after another

A word that is made of two is run by running the first and then the second from where the first has
led; what stops the second is then found that much later (`apply_append`). A run looks each symbol up
in the row that its state has in the table (`applyRows_eq_apply`), and a run of one symbol is a step.
-/

namespace FiniteReach.Automaton

variable {A : Automaton}

/-! ## Two words in a row -/

theorem apply_of_le {s : Nat} (h : A.stateCount ≤ s) (w : Word) :
    A.apply s w = .error (.state s A.stateCount) := dif_neg (Nat.not_lt.2 h)

theorem lt_of_apply {s t : Nat} {w : Word} (h : A.apply s w = .ok t) : t < A.stateCount := by
  rw [apply] at h
  split at h
  · obtain ⟨t, _, rfl⟩ := map_eq_ok.1 h
    exact t.2
  · cases h

theorem apply_append_eq_bind (A : Automaton) (s : Nat) (u v : Word) :
    A.apply s (u ++ v) =
      A.apply s u >>= fun t => (A.apply t v).mapError (·.later u.length) := by
  by_cases hs : s < A.stateCount
  · rw [apply_of_lt hs, apply_of_lt hs, follow_append]
    cases A.follow ⟨s, hs⟩ 0 u with
    | error e => rfl
    | ok t =>
        show (A.follow t (0 + u.length) v).map Fin.val =
          (A.apply t v).mapError (·.later u.length)
        rw [apply_of_lt t.2, Nat.zero_add, ← map_mapError]
        exact congrArg (Except.map Fin.val) (follow_add t u.length 0 v)
  · rw [apply_of_le (Nat.not_lt.1 hs), apply_of_le (Nat.not_lt.1 hs)]
    rfl

theorem apply_singleton (A : Automaton) (s a : Nat) : A.apply s [a] = A.step s a := by
  rw [step]
  split
  · next hs =>
      rw [apply_of_lt hs]
      split
      · next ha =>
          rw [follow_cons ha]
          rfl
      · next ha =>
          rw [follow_strange ha]
          rfl
  · next hs => exact apply_of_le (Nat.not_lt.1 hs) _

/-! ## Rows of the table -/

theorem getElem?_row (s : Fin A.stateCount) {a : Nat} (ha : a < A.alphabetSize) :
    ((A.row s).map Fin.val)[a]? = some (A.next s ⟨a, ha⟩).1 := by
  simp [row, ha]

theorem row?_eq (s : Fin A.stateCount) : A.row? s = some ((A.row s).map Fin.val) := by
  have hend : s.1 * A.alphabetSize + A.alphabetSize ≤ A.table.size := by
    rw [A.size_table, ← Nat.succ_mul]
    exact Nat.mul_le_mul_right _ s.2
  rw [row?, if_pos hend, Option.some.injEq]
  refine List.ext_getElem? fun a => ?_
  by_cases ha : a < A.alphabetSize
  · have hcell := A.getElem?_table s ⟨a, ha⟩
    simp [row, ha, hcell]
  · simp [row, ha]

/-- The successor of `s` on a symbol with its position, looked up in the row of `s`. -/
def lookUp (A : Automaton) (s : Nat) : Nat × Nat → Except IndexFault Nat
  | (a, i) =>
    match (A.row? s).bind (·[a]?) with
    | some t => .ok t
    | none => .error (.symbol a i A.alphabetSize)

/-- The state in which a word ends that starts in `s`, one row after another. -/
def applyRows (A : Automaton) (s : Nat) (w : Word) : Except IndexFault Nat :=
  if A.hasState s then w.zipIdx.foldlM A.lookUp s else .error (.state s A.stateCount)

theorem lookUp_of_lt (s : Fin A.stateCount) {a : Nat} (i : Nat) (ha : a < A.alphabetSize) :
    A.lookUp s (a, i) = .ok (A.next s ⟨a, ha⟩).1 := by
  simp [lookUp, row?_eq, row, ha]

theorem lookUp_of_not_lt (s : Fin A.stateCount) {a : Nat} (i : Nat) (ha : ¬ a < A.alphabetSize) :
    A.lookUp s (a, i) = .error (.symbol a i A.alphabetSize) := by
  simp [lookUp, row?_eq, row, ha]

theorem foldlM_lookUp (s : Fin A.stateCount) (i : Nat) (w : Word) :
    (w.zipIdx i).foldlM A.lookUp s.1 = (A.follow s i w).map Fin.val := by
  induction w generalizing s i with
  | nil => rfl
  | cons a w ih =>
      rw [List.zipIdx_cons, List.foldlM_cons]
      by_cases ha : a < A.alphabetSize
      · rw [lookUp_of_lt s i ha, follow_cons ha]
        exact ih _ _
      · rw [lookUp_of_not_lt s i ha, follow_strange ha]
        rfl

theorem applyRows_eq_apply (A : Automaton) (s : Nat) (w : Word) :
    A.applyRows s w = A.apply s w := by
  by_cases hs : s < A.stateCount
  · have hstate : A.hasState s = true := decide_eq_true hs
    rw [applyRows, if_pos hstate, apply_of_lt hs]
    exact foldlM_lookUp ⟨s, hs⟩ 0 w
  · have hstate : ¬ A.hasState s = true := fun h => hs (of_decide_eq_true h)
    rw [applyRows, if_neg hstate, apply_of_le (Nat.not_lt.1 hs)]

/-- A run is the run of its first part and then of its second part, and of one symbol it is a step.
All runs look their symbols up in the rows of the table, and none leads out of it. -/
theorem apply_append (A : Automaton) (s : Nat) (u v : Word) :
    A.apply s (u ++ v) =
        (A.apply s u >>= fun t => (A.apply t v).mapError (·.later u.length)) ∧
      (∀ a, A.apply s [a] = A.step s a) ∧ (∀ t, A.apply s u = .ok t → t < A.stateCount) ∧
      ∀ t w, A.applyRows t w = A.apply t w :=
  ⟨apply_append_eq_bind A s u v, apply_singleton A s, fun _ => lt_of_apply,
    applyRows_eq_apply A⟩

end FiniteReach.Automaton
