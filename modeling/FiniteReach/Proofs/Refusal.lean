import FiniteReach.Proofs.Decision

/-!
# When a decision is refused

A decision is refused exactly if one of its words has a symbol that is none of the automaton's, and
the first such symbol is named, those of the first word before those of the second. Nothing of an
automaton but the size of its alphabet plays a part in that (`acceptable_eq_error_iff`).
-/

namespace FiniteReach.Automaton

variable {A : Automaton} {e : IndexFault} {first second : Word}

/-- The second word is run from every state, and wherever it is refused, it is from the initial one
too. -/
theorem acceptable_eq_error : A.acceptable first second = .error e ↔
    A.follow ⟨A.initial, A.initial_lt⟩ 0 first = .error e ∨
      first.Over A.alphabetSize ∧ A.follow ⟨A.initial, A.initial_lt⟩ 0 second = .error e := by
  constructor
  · intro h
    rcases bind_eq_error.1 h with h | ⟨start, hstart, h⟩
    · exact .inl h
    · rcases bind_eq_error.1 h with h | ⟨lasts, _, h⟩
      · obtain ⟨s, hs, _⟩ := exists_of_tabulate_eq_error h
        exact .inr ⟨over_of_follow hstart, follow_error hs _⟩
      · cases h
  · rintro (h | ⟨hover, h⟩)
    · exact bind_eq_error.2 (.inl h)
    · obtain ⟨start, hstart⟩ := follow_of_over hover ⟨A.initial, A.initial_lt⟩ 0
      exact acceptableOn_of_follow_error (.inOrder A.stateCount) hstart h

theorem exists_acceptable_eq_error : (∃ e, A.acceptable first second = .error e) ↔
    ∃ a ∈ first ++ second, A.alphabetSize ≤ a := by
  have hover : (∃ a ∈ first ++ second, A.alphabetSize ≤ a) ↔
      ¬ (first.Over A.alphabetSize ∧ second.Over A.alphabetSize) := by
    rw [← Word.not_over_iff, not_iff_not]
    exact List.forall_mem_append
  rw [hover, ← exists_acceptable_eq_ok]
  cases A.acceptable first second with
  | error e => simp
  | ok b => simp

/-- The symbol that a refusal names. -/
theorem acceptable_eq_error_symbol : A.acceptable first second = .error e ↔
    ∃ a i, e = .symbol a i A.alphabetSize ∧ (first.FirstStrange A.alphabetSize a i ∨
      first.Over A.alphabetSize ∧ second.FirstStrange A.alphabetSize a i) := by
  rw [acceptable_eq_error, follow_eq_error_iff, follow_eq_error_iff]
  simp only [Nat.zero_add]
  constructor
  · rintro (⟨a, i, h, he⟩ | ⟨hover, a, i, h, he⟩)
    · exact ⟨a, i, he, .inl h⟩
    · exact ⟨a, i, he, .inr ⟨hover, h⟩⟩
  · rintro ⟨a, i, he, h | ⟨hover, h⟩⟩
    · exact .inl ⟨a, i, h, he⟩
    · exact .inr ⟨hover, a, i, h, he⟩

theorem acceptable_eq_error_iff (A : Automaton) (first second : Word) :
    ((∃ e, A.acceptable first second = .error e) ↔ ∃ a ∈ first ++ second, A.alphabetSize ≤ a) ∧
      (∀ e, A.acceptable first second = .error e ↔
        ∃ a i, e = .symbol a i A.alphabetSize ∧ (first.FirstStrange A.alphabetSize a i ∨
          first.Over A.alphabetSize ∧ second.FirstStrange A.alphabetSize a i)) ∧
      (∀ s n, A.acceptable first second ≠ .error (.state s n)) ∧
      ∀ B : Automaton, B.alphabetSize = A.alphabetSize → ∀ e,
        A.acceptable first second = .error e ↔ B.acceptable first second = .error e := by
  refine ⟨exists_acceptable_eq_error, fun e => acceptable_eq_error_symbol, ?_, ?_⟩
  · intro s n h
    obtain ⟨a, i, he, _⟩ := acceptable_eq_error_symbol.1 h
    cases he
  · intro B hk e
    rw [acceptable_eq_error_symbol, acceptable_eq_error_symbol, hk]

end FiniteReach.Automaton
