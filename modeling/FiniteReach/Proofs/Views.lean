import FiniteReach.Proofs.Composition
import FiniteReach.Proofs.Decision
import FiniteReach.Proofs.Machine
import FiniteReach.Proofs.Transitions

/-!
# Views of a table

The table of an automaton is seen row by row, cell by cell and as a list of transitions. A row holds
what the single steps from its state come to (`exists_row?`). The list holds all single steps in the
order of their cells (`cells_ascending`), and the machine makes it from the table without ever
dividing by zero (`transitions_eq_some`). It says all that the table does: taken as steps of
building, in whatever order, the transitions build the automaton again (`ofSteps_of_mem_iff`).
-/

namespace FiniteReach

variable {A : Automaton}

/-! ## Rows and single steps -/

theorem Automaton.exists_row? {s : Nat} (hs : s < A.stateCount) :
    ∃ row, A.row? s = some row ∧ row.length = A.alphabetSize ∧
      ∀ a < A.alphabetSize, ∃ t, row[a]? = some t ∧ A.step s a = .ok t := by
  refine ⟨_, A.row?_eq ⟨s, hs⟩, by simp [row], fun a ha => ?_⟩
  exact ⟨_, A.getElem?_row ⟨s, hs⟩ ha, step_next ⟨s, hs⟩ ⟨a, ha⟩⟩

/-! ## The list of transitions -/

theorem Automaton.transitions_eq_zipIdx (A : Automaton) : A.transitions =
    A.table.toList.zipIdx.map fun (t, cell) =>
      (cell / A.alphabetSize, cell % A.alphabetSize, t) := by
  refine List.ext_getElem ?_ fun cell _ _ => ?_
  · rw [length_transitions, List.length_map, List.length_zipIdx, Array.length_toList, A.size_table]
  · simp only [transitions, next, List.getElem_map, List.getElem_finRange, List.getElem_zipIdx,
      Fin.val_cast, Nat.div_add_mod', Array.getElem_toList, Nat.zero_add]

/-- All transitions as source, symbol and target, with the cells of the table counted through. -/
def Machine.transitions (A : Automaton) : Option (List (Nat × Nat × Nat)) :=
  A.table.toList.zipIdx.mapM fun (t, cell) => do
    let (s, a) ← divide? cell A.alphabetSize
    return (s, a, t)

/-- Over an empty alphabet there is no cell to divide. -/
theorem Machine.transitions_eq_some (A : Automaton) :
    Machine.transitions A = some A.transitions := by
  rw [transitions, A.transitions_eq_zipIdx]
  by_cases hk : A.alphabetSize = 0
  · have htable : A.table.toList = [] := by
      rw [Array.toList_eq_nil_iff, ← Array.size_eq_zero_iff, A.size_table, hk, Nat.mul_zero]
    rw [htable]
    rfl
  · simp only [divide?, if_neg hk]
    exact List.mapM_pure

/-- The cells of a table are in order row by row, and within a row column by column. -/
theorem lex_div_mod {k c c' : Nat} (h : c < c') :
    Prod.Lex (· < ·) (· < ·) (c / k, c % k) (c' / k, c' % k) := by
  rcases Nat.lt_or_eq_of_le (Nat.div_le_div_right (c := k) (Nat.le_of_lt h)) with hrow | hrow
  · exact .left _ _ hrow
  · have hc := Nat.div_add_mod' c k
    have hc' := Nat.div_add_mod' c' k
    rw [hrow] at hc ⊢
    exact .right _ (by omega)

theorem Automaton.cells_ascending (A : Automaton) :
    (A.transitions.map fun (s, a, _) => (s, a)).Pairwise (Prod.Lex (· < ·) (· < ·)) := by
  rw [transitions, List.map_map, List.pairwise_map]
  exact (List.pairwise_lt_finRange _).imp fun h => lex_div_mod h

/-! ## Building an automaton again -/

namespace Automaton

/-- The steps that say what an automaton is. -/
def steps (A : Automaton) : List BuildStep :=
  .initial A.initial :: A.finals.map .final ++ A.transitions.map fun (s, a, t) => .transition s a t

theorem initial_mem_steps {q : Nat} : .initial q ∈ A.steps ↔ q = A.initial := by
  simp [steps]

theorem final_mem_steps {f : Nat} : .final f ∈ A.steps ↔ f ∈ A.finals := by
  simp [steps]

theorem transition_mem_steps {s a t : Nat} :
    .transition s a t ∈ A.steps ↔ (s, a, t) ∈ A.transitions := by
  simp [steps]

/-- The steps of an automaton build it, in whatever order and however often each comes. -/
theorem ofSteps_of_mem_iff {steps : List BuildStep} (h : ∀ step, step ∈ steps ↔ step ∈ A.steps) :
    ofSteps A.alphabetSize A.stateCount steps = .ok A := by
  have hinitial : lastInitial steps = A.initial :=
    lastInitial_of_mem ((h _).2 (initial_mem_steps.2 rfl)) fun q hm =>
      initial_mem_steps.1 ((h _).1 hm)
  refine ofSteps_eq_ok.2 ⟨rfl, rfl, .of_transitions hinitial.symm (fun f => ?_) fun s a t => ?_⟩
  · rw [h, final_mem_steps]
  · rw [h, transition_mem_steps]

/-! ## All views -/

theorem views_agree (A : Automaton) :
    (∀ s < A.stateCount, ∃ row, A.row? s = some row ∧ row.length = A.alphabetSize ∧
      ∀ a < A.alphabetSize, ∃ t, row[a]? = some t ∧ A.step s a = .ok t) ∧
    Machine.transitions A = some A.transitions ∧
    A.transitions.length = A.stateCount * A.alphabetSize ∧
    (∀ s a t, (s, a, t) ∈ A.transitions ↔
      s < A.stateCount ∧ a < A.alphabetSize ∧ A.step s a = .ok t) ∧
    (A.transitions.map fun (s, a, _) => (s, a)).Pairwise (Prod.Lex (· < ·) (· < ·)) ∧
    ∀ steps : List BuildStep, (∀ step, step ∈ steps ↔ step ∈ A.steps) →
      ofSteps A.alphabetSize A.stateCount steps = .ok A := by
  refine ⟨fun s => exists_row?, Machine.transitions_eq_some A, A.length_transitions, fun s a t => ?_,
    A.cells_ascending, fun steps => ofSteps_of_mem_iff⟩
  rw [step_eq_ok]
  constructor
  · intro h
    obtain ⟨hs, ha, _⟩ := mem_transitions.1 h
    exact ⟨hs, ha, h⟩
  · rintro ⟨_, _, h⟩
    exact h

/-- From the last step to the first, with the final state once more. -/
theorem chain_views :
    2 < chain.stateCount ∧
      (∃ row, chain.row? 2 = some row ∧ row.length = 2 ∧
        ∀ a < 2, ∃ t, row[a]? = some t ∧ chain.step 2 a = .ok t) ∧
      (∀ step, step ∈ chain.steps.reverse ++ [.final 3] ↔ step ∈ chain.steps) ∧
      ofSteps 2 4 (chain.steps.reverse ++ [.final 3]) = .ok chain := by
  obtain ⟨hrow, _, _, _, _, hsteps⟩ := views_agree chain
  have hmem (step : BuildStep) :
      step ∈ chain.steps.reverse ++ [.final 3] ↔ step ∈ chain.steps := by
    have hfinal : .final 3 ∈ chain.steps := final_mem_steps.2 (by decide)
    rw [List.mem_append, List.mem_reverse, List.mem_singleton, or_iff_left_of_imp]
    rintro rfl
    exact hfinal
  exact ⟨by decide, hrow 2 (by decide), hmem, hsteps _ hmem⟩

end Automaton

end FiniteReach
