import FiniteReach.Automaton.Run
import FiniteReach.Proofs.Builder
import Mathlib.Data.List.FinRange
import Mathlib.Data.List.OfFn

/-!
# Cells, transitions and steps

The transitions of an automaton list its table cell by cell (`transitions_eq`), and a single step
looks one of them up (`step_eq_ok`). Automata that agree on all steps are equal (`ext_step`).
-/

namespace FiniteReach.Automaton

variable {A B : Automaton}

/-! ## The list of transitions -/

theorem length_transitions (A : Automaton) :
    A.transitions.length = A.stateCount * A.alphabetSize := by
  rw [transitions, List.length_map, List.length_finRange]

theorem getElem?_transitions (A : Automaton) (s : Fin A.stateCount) (a : Fin A.alphabetSize) :
    A.transitions[s.1 * A.alphabetSize + a.1]? = some (s.1, a.1, (A.next s a).1) := by
  have hcell := cell_lt s.2 a.2
  rw [transitions, List.getElem?_map, List.getElem?_eq_getElem (by rwa [List.length_finRange]),
    List.getElem_finRange]
  simp only [Option.map_some, Fin.val_cast, cell_div a.2, cell_mod a.2]

theorem transitions_eq (A : Automaton) : A.transitions =
    (List.finRange A.stateCount).flatMap fun s =>
      (List.finRange A.alphabetSize).map fun a => (s.1, a.1, (A.next s a).1) := by
  rw [transitions, ← List.ofFn_eq_map, List.ofFn_mul, List.flatMap_def, ← List.ofFn_eq_map]
  simp only [cell_div (Fin.isLt _), cell_mod (Fin.isLt _), List.ofFn_eq_map]

/-! ## Single steps -/

theorem step_eq_ok {s a t : Nat} : A.step s a = .ok t ↔ (s, a, t) ∈ A.transitions := by
  rw [mem_transitions, step]
  split
  · next hs =>
      split
      · next ha => simp only [Except.ok.injEq, hs, ha, exists_true_left]
      · next ha => simp only [reduceCtorEq, ha, IsEmpty.exists_iff, exists_false]
  · next hs => simp only [reduceCtorEq, hs, IsEmpty.exists_iff]

theorem step_next (s : Fin A.stateCount) (a : Fin A.alphabetSize) :
    A.step s a = .ok (A.next s a).1 :=
  step_eq_ok.2 (mem_transitions.2 ⟨s.2, a.2, rfl⟩)

/-- Every cell of the table is the target of a step. -/
theorem exists_step_of_cell {c : Nat} (hc : c < A.stateCount * A.alphabetSize) :
    ∃ t, A.step (c / A.alphabetSize) (c % A.alphabetSize) = .ok t :=
  ⟨_, step_next ⟨_, div_lt_of_cell hc⟩ ⟨_, mod_lt_of_cell hc⟩⟩

theorem getElem?_table_of_step {c t : Nat}
    (h : A.step (c / A.alphabetSize) (c % A.alphabetSize) = .ok t) : A.table[c]? = some t := by
  obtain ⟨hs, ha, rfl⟩ := mem_transitions.1 (step_eq_ok.1 h)
  have htable := A.getElem?_table ⟨_, hs⟩ ⟨_, ha⟩
  rwa [Nat.div_add_mod'] at htable

/-- Automata that agree on single steps, and on where words start and end, are equal. -/
theorem ext_step (hk : A.alphabetSize = B.alphabetSize) (hn : A.stateCount = B.stateCount)
    (hq : A.initial = B.initial) (hfs : A.finals = B.finals)
    (h : ∀ s < A.stateCount, ∀ a < A.alphabetSize, A.step s a = B.step s a) : A = B := by
  refine Automaton.ext hk hn hq hfs (Array.ext_getElem? fun c => ?_)
  by_cases hc : c < A.stateCount * A.alphabetSize
  · obtain ⟨t, hstep⟩ := exists_step_of_cell hc
    have hstep' := (h _ (div_lt_of_cell hc) _ (mod_lt_of_cell hc)).symm.trans hstep
    rw [hk] at hstep'
    rw [getElem?_table_of_step hstep, getElem?_table_of_step hstep']
  · rw [Array.getElem?_eq_none (by rw [A.size_table]; omega),
      Array.getElem?_eq_none (by rw [B.size_table, ← hk, ← hn]; omega)]

end FiniteReach.Automaton
