import FiniteReach.Automaton.Run
import FiniteReach.Collect
import FiniteReach.Proofs.First

/-!
# Runs of words

A run ends in a state exactly if its word is over the alphabet, and otherwise names the first symbol
that is not and its position, whatever the state in which it began. `Leads` is the relation that
searches decide.
-/

namespace FiniteReach

/-- Every symbol of a word is smaller than `k`. -/
def Word.Over (k : Nat) (w : Word) : Prop := ∀ a ∈ w, a < k

instance (k : Nat) (w : Word) : Decidable (w.Over k) := inferInstanceAs (Decidable (∀ a ∈ w, a < k))

theorem Word.over_cons {k a : Nat} {w : Word} : Word.Over k (a :: w) ↔ a < k ∧ w.Over k :=
  List.forall_mem_cons

/-! ## The first symbol out of range -/

/-- `a` at position `i` is the first symbol of a word that is not smaller than `k`. -/
structure Word.FirstStrange (k : Nat) (w : Word) (a i : Nat) : Prop where
  getElem? : w[i]? = some a
  le : k ≤ a
  before : Word.Over k (w.take i)

namespace Word

variable {k a i : Nat} {w : Word}

theorem not_over_iff : ¬ w.Over k ↔ ∃ a ∈ w, k ≤ a := by
  simp [Word.Over]

theorem firstStrange_iff : w.FirstStrange k a i ↔ FirstAt (k ≤ ·) w i a := by
  constructor
  · intro h
    exact ⟨h.getElem?, h.le, fun b hb => Nat.not_le.2 (h.before b hb)⟩
  · intro h
    exact ⟨h.getElem?, h.holds, fun b hb => Nat.lt_of_not_le (h.before b hb)⟩

theorem exists_firstStrange (h : ¬ w.Over k) : ∃ a i, w.FirstStrange k a i := by
  rcases FirstAt.exists_or_forall_not (k ≤ ·) w with ⟨i, a, hfirst⟩ | hnone
  · exact ⟨a, i, firstStrange_iff.2 hfirst⟩
  · exact absurd (fun a ha => Nat.lt_of_not_le (hnone a ha)) h

/-- A word falls into what comes before its first strange symbol, that symbol and the rest. -/
theorem FirstStrange.eq_append (h : w.FirstStrange k a i) :
    w = w.take i ++ a :: w.drop (i + 1) ∧ (w.take i).length = i :=
  (firstStrange_iff.1 h).eq_append

end Word

/-- The fault of a run that begins after `n` symbols, with these counted as well. -/
def IndexFault.later (n : Nat) : IndexFault → IndexFault
  | .state s stateCount => .state s stateCount
  | .symbol a i alphabetSize => .symbol a (n + i) alphabetSize

namespace Automaton

variable {A : Automaton}

theorem mem_row {s t : Fin A.stateCount} : t ∈ A.row s ↔ ∃ a, A.next s a = t := by
  simp [row]

/-! ## One symbol after another -/

theorem follow_cons {s : Fin A.stateCount} {i a : Nat} {w : Word} (h : a < A.alphabetSize) :
    A.follow s i (a :: w) = A.follow (A.next s ⟨a, h⟩) (i + 1) w := by
  rw [follow, dif_pos h]

theorem follow_strange {s : Fin A.stateCount} {i a : Nat} {w : Word} (h : ¬ a < A.alphabetSize) :
    A.follow s i (a :: w) = .error (.symbol a i A.alphabetSize) := by
  rw [follow, dif_neg h]

theorem follow_append {s : Fin A.stateCount} {i : Nat} {u v : Word} :
    A.follow s i (u ++ v) = A.follow s i u >>= fun t => A.follow t (i + u.length) v := by
  induction u generalizing s i with
  | nil => rfl
  | cons a u ih =>
      by_cases h : a < A.alphabetSize
      · rw [List.cons_append, follow_cons h, follow_cons h, ih, List.length_cons,
          Nat.add_assoc, Nat.add_comm 1]
      · rw [List.cons_append, follow_strange h, follow_strange h]
        rfl

theorem follow_add (s : Fin A.stateCount) (n i : Nat) (w : Word) :
    A.follow s (n + i) w = (A.follow s i w).mapError (·.later n) := by
  induction w generalizing s i with
  | nil => rfl
  | cons a w ih =>
      by_cases ha : a < A.alphabetSize
      · rw [follow_cons ha, follow_cons ha]
        exact ih _ (i + 1)
      · rw [follow_strange ha, follow_strange ha]
        rfl

/-! ## When a run ends in a state -/

theorem follow_of_over {w : Word} (h : w.Over A.alphabetSize) (s : Fin A.stateCount) (i : Nat) :
    ∃ t, A.follow s i w = .ok t := by
  induction w generalizing s i with
  | nil => exact ⟨s, rfl⟩
  | cons a w ih =>
      obtain ⟨ha, hw⟩ := Word.over_cons.1 h
      rw [follow_cons ha]
      exact ih hw _ _

/-- The first symbol that is none of the automaton's stops a run. -/
theorem follow_firstStrange {w : Word} {a j : Nat} (h : w.FirstStrange A.alphabetSize a j)
    (s : Fin A.stateCount) (i : Nat) :
    A.follow s i w = .error (.symbol a (i + j) A.alphabetSize) := by
  obtain ⟨hw, hlength⟩ := h.eq_append
  obtain ⟨t, ht⟩ := follow_of_over h.before s i
  rw [hw, follow_append, ht, hlength]
  exact follow_strange (Nat.not_lt.2 h.le)

theorem over_of_follow {s t : Fin A.stateCount} {i : Nat} {w : Word}
    (h : A.follow s i w = .ok t) : w.Over A.alphabetSize := by
  refine Decidable.byContradiction fun hover => ?_
  obtain ⟨a, j, hfirst⟩ := Word.exists_firstStrange hover
  cases h.symm.trans (follow_firstStrange hfirst s i)

/-- The positions of its symbols do not matter to a run that ends in a state. -/
theorem follow_shift {s t : Fin A.stateCount} {i : Nat} {w : Word}
    (h : A.follow s i w = .ok t) (j : Nat) : A.follow s j w = .ok t := by
  rw [← Nat.add_zero i, follow_add, mapError_eq_ok] at h
  rw [← Nat.add_zero j, follow_add, mapError_eq_ok, h]

/-! ## When a run fails -/

theorem follow_eq_error_iff {s : Fin A.stateCount} {i : Nat} {w : Word} {e : IndexFault} :
    A.follow s i w = .error e ↔
      ∃ a j, w.FirstStrange A.alphabetSize a j ∧ e = .symbol a (i + j) A.alphabetSize := by
  constructor
  · intro h
    have hover : ¬ w.Over A.alphabetSize := fun hover => by
      obtain ⟨t, ht⟩ := follow_of_over hover s i
      cases h.symm.trans ht
    obtain ⟨a, j, hfirst⟩ := Word.exists_firstStrange hover
    cases h.symm.trans (follow_firstStrange hfirst s i)
    exact ⟨a, j, hfirst, rfl⟩
  · rintro ⟨a, j, hfirst, rfl⟩
    exact follow_firstStrange hfirst s i

/-- A run that fails does so from every state, and in the same way. -/
theorem follow_error {s : Fin A.stateCount} {i : Nat} {w : Word} {e : IndexFault}
    (h : A.follow s i w = .error e) (t : Fin A.stateCount) : A.follow t i w = .error e :=
  follow_eq_error_iff.2 (follow_eq_error_iff.1 h)

theorem apply_of_lt {s : Nat} (h : s < A.stateCount) (w : Word) :
    A.apply s w = (A.follow ⟨s, h⟩ 0 w).map Fin.val := dif_pos h

/-! ## Which states are led to -/

/-- Some word leads from `s` to `t`. -/
def Leads (A : Automaton) (s t : Fin A.stateCount) : Prop := ∃ w, A.follow s 0 w = .ok t

theorem Leads.refl (s : Fin A.stateCount) : A.Leads s s := ⟨[], rfl⟩

theorem Leads.tail {s t r : Fin A.stateCount} (h : A.Leads s t) (hr : r ∈ A.row t) :
    A.Leads s r := by
  obtain ⟨w, hw⟩ := h
  obtain ⟨a, rfl⟩ := mem_row.1 hr
  refine ⟨w ++ [a.1], ?_⟩
  rw [follow_append, hw]
  exact follow_cons a.2

/-- A set of states that no transition leaves is left by no word. -/
theorem Leads.closed {P : Fin A.stateCount → Prop} (hP : ∀ s, P s → ∀ t ∈ A.row s, P t)
    {s t : Fin A.stateCount} (h : A.Leads s t) (hs : P s) : P t := by
  obtain ⟨w, hw⟩ := h
  suffices ∀ i, A.follow s i w = .ok t → P t from this 0 hw
  clear hw
  induction w generalizing s with
  | nil => intro i h; cases h; exact hs
  | cons a w ih =>
      intro i h
      by_cases ha : a < A.alphabetSize
      · rw [follow_cons ha] at h
        exact ih (hP s hs _ (mem_row.2 ⟨_, rfl⟩)) _ h
      · rw [follow_strange ha] at h
        cases h

end Automaton

end FiniteReach
