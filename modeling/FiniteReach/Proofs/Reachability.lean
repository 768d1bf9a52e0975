import FiniteReach.Proofs.Search
import FiniteReach.Proofs.Transitions
import Mathlib.Order.Bounds.Defs
import Mathlib.Order.SetNotation

/-!
# Reachable states and closures

A state can be reached from another exactly if some word over the alphabet leads there
(`reachable_iff_exists_word`). The closure of a state lists all that can be reached from it, in
ascending order, and is the least set of states that holds it and that no transition leaves
(`closure_isLeast`).
-/

namespace FiniteReach

/-! ## The marked states in order -/

namespace Search

variable {A : Automaton} {search : Search A}

theorem mem_marked {t : Nat} :
    t ∈ search.marked ↔ ∃ h : t < A.stateCount, search.visited.get ⟨t, h⟩ = true := by
  simp only [marked, List.mem_map, List.mem_filter, List.mem_finRange, true_and]
  constructor
  · rintro ⟨t, ht, rfl⟩
    exact ⟨t.2, ht⟩
  · rintro ⟨h, ht⟩
    exact ⟨⟨t, h⟩, ht, rfl⟩

theorem marked_pairwise (search : Search A) : search.marked.Pairwise (· < ·) := by
  rw [marked, List.pairwise_map]
  exact (List.pairwise_lt_finRange _).filter _

end Search

namespace Automaton

variable {A : Automaton}

/-! ## Reachable states -/

theorem reachable_iff_leads {s t : Nat} : A.reachable s t = true ↔
    ∃ (hs : s < A.stateCount) (ht : t < A.stateCount), A.Leads ⟨s, hs⟩ ⟨t, ht⟩ := by
  constructor
  · intro h
    have hlt : s < A.stateCount ∧ t < A.stateCount := by
      rw [reachable] at h
      split at h
      · next hst =>
          have hs : s < A.stateCount := of_decide_eq_true h
          exact ⟨hs, hst ▸ hs⟩
      · split at h
        · next hlt => exact hlt
        · cases h
    exact ⟨hlt.1, hlt.2, (reachable_iff (s := ⟨s, hlt.1⟩) (t := ⟨t, hlt.2⟩)).1 h⟩
  · rintro ⟨hs, ht, h⟩
    exact (reachable_iff (s := ⟨s, hs⟩) (t := ⟨t, ht⟩)).2 h

theorem leads_iff_exists_apply {s t : Fin A.stateCount} :
    A.Leads s t ↔ ∃ w : Word, w.Over A.alphabetSize ∧ A.apply s w = .ok t.1 := by
  constructor
  · rintro ⟨w, hw⟩
    refine ⟨w, over_of_follow hw, ?_⟩
    rw [apply_of_lt s.2, hw]
    rfl
  · rintro ⟨w, _, hw⟩
    rw [apply_of_lt s.2] at hw
    obtain ⟨t', ht', hval⟩ := map_eq_ok.1 hw
    exact ⟨w, Fin.ext hval ▸ ht'⟩

theorem tryReachable_eq (A : Automaton) (s t : Nat) : A.tryReachable s t =
    if A.stateCount ≤ s then .error (.state s A.stateCount)
    else if A.stateCount ≤ t then .error (.state t A.stateCount)
    else .ok (A.reachable s t) := by
  simp only [tryReachable, hasState, decide_eq_true_eq, ← Nat.not_lt, ite_not]

theorem reachable_iff_exists_word (A : Automaton) (s t : Nat) :
    (A.reachable s t = true ↔ s < A.stateCount ∧ t < A.stateCount ∧
      ∃ w : Word, w.Over A.alphabetSize ∧ A.apply s w = .ok t) ∧
    A.tryReachable s t =
      if A.stateCount ≤ s then .error (.state s A.stateCount)
      else if A.stateCount ≤ t then .error (.state t A.stateCount)
      else .ok (A.reachable s t) := by
  refine ⟨?_, tryReachable_eq A s t⟩
  rw [reachable_iff_leads]
  constructor
  · rintro ⟨hs, ht, h⟩
    exact ⟨hs, ht, leads_iff_exists_apply.1 h⟩
  · rintro ⟨hs, ht, h⟩
    exact ⟨hs, ht, leads_iff_exists_apply.2 h⟩

/-! ## Sets of states that no transition leaves -/

/-- A set of states that no transition leaves. -/
structure Closed (A : Automaton) (S : Set Nat) : Prop where
  lt : ∀ s ∈ S, s < A.stateCount
  step_mem : ∀ s ∈ S, ∀ a t, A.step s a = .ok t → t ∈ S

theorem mem_row_of_step {s a t : Nat} (h : A.step s a = .ok t) :
    ∃ (hs : s < A.stateCount) (ht : t < A.stateCount), ⟨t, ht⟩ ∈ A.row ⟨s, hs⟩ := by
  obtain ⟨hs, ha, rfl⟩ := mem_transitions.1 (step_eq_ok.1 h)
  exact ⟨hs, Fin.isLt _, mem_row.2 ⟨⟨a, ha⟩, rfl⟩⟩

theorem step_of_mem_row {s t : Fin A.stateCount} (h : t ∈ A.row s) :
    ∃ a, A.step s a = .ok t.1 := by
  obtain ⟨a, rfl⟩ := mem_row.1 h
  exact ⟨a.1, step_next s a⟩

theorem closed_reachable (s : Nat) : A.Closed {t | A.reachable s t = true} where
  lt t ht := by
    obtain ⟨_, hlt, _⟩ := reachable_iff_leads.1 ht
    exact hlt
  step_mem r hr a t h := by
    obtain ⟨hs, _, hlead⟩ := reachable_iff_leads.1 hr
    obtain ⟨_, ht, hrow⟩ := mem_row_of_step h
    exact reachable_iff_leads.2 ⟨hs, ht, hlead.tail hrow⟩

/-- A closed set holds what can be reached from a state in it. -/
theorem Closed.mem_of_reachable {S : Set Nat} {s t : Nat} (h : A.Closed S) (hs : s ∈ S)
    (ht : A.reachable s t = true) : t ∈ S := by
  obtain ⟨_, _, hlead⟩ := reachable_iff_leads.1 ht
  refine hlead.closed (P := fun r => r.1 ∈ S) (fun r hr r' hrow => ?_) hs
  obtain ⟨a, ha⟩ := step_of_mem_row hrow
  exact h.step_mem r hr a r' ha

/-! ## Closures -/

/-- The two ways to work a search off agree: to its end, or up to a target. -/
theorem mem_closure {s t : Nat} {states : List Nat} (h : A.closure s = .ok states) :
    t ∈ states ↔ A.reachable s t = true := by
  rw [closure] at h
  split at h
  · next hs =>
      cases h
      rw [Search.mem_marked, reachable_iff_leads]
      constructor
      · rintro ⟨ht, hmark⟩
        exact ⟨hs, ht, reachMarks_iff.1 hmark⟩
      · rintro ⟨_, ht, hlead⟩
        exact ⟨ht, reachMarks_iff.2 hlead⟩
  · cases h

theorem exists_closure {s : Nat} (h : s < A.stateCount) :
    ∃ states, A.closure s = .ok states ∧ states.Pairwise (· < ·) :=
  ⟨_, dif_pos h, Search.marked_pairwise _⟩

theorem closure_isLeast (A : Automaton) (s : Nat) :
    A.stateCount ≤ s ∧ A.closure s = .error (.state s A.stateCount) ∨
      s < A.stateCount ∧ ∃ states, A.closure s = .ok states ∧ states.Pairwise (· < ·) ∧
        s ∈ states ∧ (∀ t, t ∈ states ↔ A.reachable s t = true) ∧
        IsLeast {S : Set Nat | s ∈ S ∧ A.Closed S} {t | t ∈ states} := by
  by_cases hs : s < A.stateCount
  · obtain ⟨states, hclosure, hsorted⟩ := exists_closure hs
    have hmem (t : Nat) := mem_closure hclosure (t := t)
    have hself : A.reachable s s = true := reachable_iff_leads.2 ⟨hs, hs, Leads.refl _⟩
    have hset : {t | t ∈ states} = {t | A.reachable s t = true} := Set.ext hmem
    refine .inr ⟨hs, states, hclosure, hsorted, (hmem s).2 hself, hmem, ?_⟩
    rw [hset]
    constructor
    · exact ⟨hself, closed_reachable s⟩
    · intro S hS t ht
      exact hS.2.mem_of_reachable hS.1 ht
  · exact .inl ⟨Nat.not_lt.1 hs, dif_neg hs⟩

end Automaton

end FiniteReach
