import FiniteReach.Automaton.Decision
import FiniteReach.Proofs.Search

/-!
# What the decision decides

Two words are acceptable exactly if some word between them makes one word of the three that leads
from the initial state to a final one. Whoever does the work for the states, the answer is the
same, and so is the error: a symbol that is none stops the second word in the same place from every
state. The decision is the workers' decision of one who takes the states in order.
-/

namespace FiniteReach

/-- Those who take the tasks in order. -/
def Workers.inOrder (n : Nat) : Workers n where
  gather := tabulate
  any test := n.any fun s h => test ⟨s, h⟩
  gather_eq_ok := tabulate_eq_ok
  exists_of_gather_eq_error h := (exists_of_tabulate_eq_error h).imp fun _ hs => hs.1
  any_eq_true := FiniteReach.any_eq_true _

namespace Automaton

variable {A : Automaton} {first second : Word}

/-- Some word between the two makes a word of the three that is accepted. -/
def Accepts (A : Automaton) (first second : Word) : Prop :=
  ∃ w : Word, w.Over A.alphabetSize ∧
    ∃ f ∈ A.finals, A.apply A.initial (first ++ w ++ second) = .ok f

theorem mem_finals_iff {s : Nat} : A.isFinal s = true ↔ s ∈ A.finals := List.contains_iff_mem

/-! ## Three words in a row -/

theorem follow_between {w : Word} {s start r t : Fin A.stateCount}
    (h₁ : A.follow s 0 first = .ok start) (h₂ : A.follow start 0 w = .ok r)
    (h₃ : A.follow r 0 second = .ok t) : A.follow s 0 (first ++ w ++ second) = .ok t := by
  rw [follow_append, follow_append, h₁]
  show (A.follow start _ w >>= _) = _
  rw [follow_shift h₂]
  exact follow_shift h₃ _

/-- A witness is a state that the first word leads to by way of another and the second takes to a
final state. -/
theorem accepts_iff {start : Fin A.stateCount} {last : Fin A.stateCount → Fin A.stateCount}
    (hstart : A.follow ⟨A.initial, A.initial_lt⟩ 0 first = .ok start)
    (hlast : ∀ s, A.follow s 0 second = .ok (last s)) :
    A.Accepts first second ↔ ∃ s, A.Leads start s ∧ (last s).1 ∈ A.finals := by
  have hrun {w : Word} {s : Fin A.stateCount} (hw : A.follow start 0 w = .ok s) :
      A.apply A.initial (first ++ w ++ second) = .ok (last s).1 := by
    rw [apply_of_lt A.initial_lt, follow_between hstart hw (hlast s)]
    rfl
  constructor
  · intro ⟨w, hw, f, hf, h⟩
    obtain ⟨s, hs⟩ := follow_of_over hw start 0
    rw [hrun hs] at h
    cases h
    exact ⟨s, ⟨w, hs⟩, hf⟩
  · intro ⟨s, ⟨w, hw⟩, hf⟩
    exact ⟨w, over_of_follow hw, _, hf, hrun hw⟩

/-! ## Whoever does the work -/

theorem acceptable_eq_inOrder :
    A.acceptable first second = A.acceptableOn (.inOrder A.stateCount) first second := rfl

section Workers

variable (workers : Workers A.stateCount) {start : Fin A.stateCount}
  (hstart : A.follow ⟨A.initial, A.initial_lt⟩ 0 first = .ok start)

include hstart

/-- With every run known, the answer is whether there is a witness. -/
theorem acceptableOn_of_follow {last : Fin A.stateCount → Fin A.stateCount}
    (hlast : ∀ s, A.follow s 0 second = .ok (last s)) :
    ∃ b, A.acceptableOn workers first second = .ok b ∧ (b = true ↔ A.Accepts first second) := by
  have hlasts : workers.gather (fun s => A.follow s 0 second) = .ok (Vector.ofFn last) :=
    workers.gather_eq_ok.2 fun s => by rw [hlast, get_ofFn]
  refine ⟨_, by rw [acceptableOn, hstart, hlasts]; rfl, ?_⟩
  rw [workers.any_eq_true, accepts_iff hstart hlast]
  simp only [Bool.and_eq_true, reachMarks_iff, get_finalMarks, mem_finals_iff, get_ofFn]

/-- The error with which the workers come back may be that of another state, but it is the same. -/
theorem acceptableOn_of_follow_error {s : Fin A.stateCount} {e : IndexFault}
    (hs : A.follow s 0 second = .error e) : A.acceptableOn workers first second = .error e := by
  rw [acceptableOn, hstart]
  cases hl : workers.gather fun s => A.follow s 0 second with
  | ok lasts => cases hs.symm.trans (workers.gather_eq_ok.1 hl s)
  | error e' =>
      obtain ⟨s', hs'⟩ := workers.exists_of_gather_eq_error hl
      cases (follow_error hs s').symm.trans hs'
      rfl

end Workers

/-- All workers decide alike. -/
theorem acceptableOn_congr (workers workers' : Workers A.stateCount) :
    A.acceptableOn workers first second = A.acceptableOn workers' first second := by
  cases hstart : A.follow ⟨A.initial, A.initial_lt⟩ 0 first with
  | error e => rw [acceptableOn, acceptableOn, hstart]; rfl
  | ok start =>
      cases hl : workers.gather fun s => A.follow s 0 second with
      | ok lasts =>
          have hlast := workers.gather_eq_ok.1 hl
          obtain ⟨b, hb, hiff⟩ := acceptableOn_of_follow workers hstart hlast
          obtain ⟨b', hb', hiff'⟩ := acceptableOn_of_follow workers' hstart hlast
          rw [hb, hb', Except.ok.injEq, Bool.eq_iff_iff, hiff, hiff']
      | error e =>
          obtain ⟨s, hs⟩ := workers.exists_of_gather_eq_error hl
          rw [acceptableOn_of_follow_error workers hstart hs,
            acceptableOn_of_follow_error workers' hstart hs]

/-! ## The decision -/

theorem acceptableOn_eq_acceptable (A : Automaton) (workers : Workers A.stateCount)
    (first second : Word) : A.acceptableOn workers first second = A.acceptable first second := by
  rw [acceptable_eq_inOrder]
  exact acceptableOn_congr workers _

/-- There is an answer exactly if both words are over the alphabet. The second word is run from every
state, and there is one. -/
theorem exists_acceptable_eq_ok : (∃ b, A.acceptable first second = .ok b) ↔
    first.Over A.alphabetSize ∧ second.Over A.alphabetSize := by
  constructor
  · rintro ⟨b, h⟩
    obtain ⟨start, hstart, h⟩ := bind_eq_ok.1 h
    obtain ⟨lasts, hlasts, _⟩ := bind_eq_ok.1 h
    exact ⟨over_of_follow hstart, over_of_follow (tabulate_eq_ok.1 hlasts ⟨A.initial, A.initial_lt⟩)⟩
  · rintro ⟨hf, hs⟩
    obtain ⟨start, hstart⟩ := follow_of_over hf ⟨A.initial, A.initial_lt⟩ 0
    choose last hlast using fun s => follow_of_over hs s 0
    obtain ⟨b, hb, _⟩ := acceptableOn_of_follow (.inOrder A.stateCount) hstart hlast
    exact ⟨b, hb⟩

theorem acceptable_eq_ok_iff (A : Automaton) (first second : Word)
    (hf : first.Over A.alphabetSize) (hs : second.Over A.alphabetSize) :
    (A.acceptable first second = .ok true ↔ A.Accepts first second) ∧
      (A.acceptable first second = .ok false ↔ ¬ A.Accepts first second) := by
  obtain ⟨start, hstart⟩ := follow_of_over hf ⟨A.initial, A.initial_lt⟩ 0
  choose last hlast using fun s => follow_of_over hs s 0
  obtain ⟨b, hb, hiff⟩ := acceptableOn_of_follow (.inOrder A.stateCount) hstart hlast
  rw [acceptable_eq_inOrder, hb, ← hiff, Except.ok.injEq, Except.ok.injEq, Bool.not_eq_true]
  exact ⟨Iff.rfl, Iff.rfl⟩

/-- A way through four states, one symbol to go on and the other to stay. -/
def chain : Automaton where
  alphabetSize := 2
  stateCount := 4
  initial := 0
  finals := [3]
  table := #[1, 0, 2, 1, 2, 3, 3, 3]
  initial_lt := by decide
  finals_lt := by decide
  finals_ascending := by decide
  size_table := by decide
  target_lt := by decide
  stateCount_lt := by decide
  size_lt := by decide

theorem chain_accepts : Word.Over 2 [0] ∧ Word.Over 2 [1] ∧ chain.Accepts [0] [1] :=
  ⟨by decide, by decide,
    (acceptable_eq_ok_iff chain [0] [1] (by decide) (by decide)).1.1 (by decide +kernel)⟩

/-! ## A search for each candidate -/

/-- The decision that searches anew for each state that the second word takes to a final one. -/
def acceptableEach (A : Automaton) (first second : Word) : Except IndexFault Bool := do
  let start ← A.follow ⟨A.initial, A.initial_lt⟩ 0 first
  let lasts ← tabulate fun s => A.follow s 0 second
  let candidates := (List.finRange A.stateCount).filter fun s => A.isFinal (lasts.get s)
  return candidates.any fun s => A.reachable start s

theorem acceptableEach_eq_acceptable (A : Automaton) (first second : Word) :
    A.acceptableEach first second = A.acceptable first second := by
  rw [acceptableEach, acceptable]
  refine bind_congr fun start => bind_congr fun lasts => congrArg Except.ok ?_
  rw [Bool.eq_iff_iff, List.any_eq_true]
  refine Iff.trans ?_ (any_eq_true fun s =>
    (A.reachMarks start).get s && A.finalMarks.get (lasts.get s)).symm
  simp only [List.mem_filter, List.mem_finRange, true_and, Bool.and_eq_true, reachMarks_iff,
    reachable_iff, get_finalMarks, and_comm]

/-- The workers' decision with a search of its own for each state that may be a witness. -/
def acceptableOnEach (A : Automaton) (workers : Workers A.stateCount) (first second : Word) :
    Except IndexFault Bool := do
  let start ← A.follow ⟨A.initial, A.initial_lt⟩ 0 first
  let lasts ← workers.gather fun s => A.follow s 0 second
  return workers.any fun s => A.isFinal (lasts.get s) && A.reachable start s

theorem acceptableOnEach_eq_acceptableOn (A : Automaton) (workers : Workers A.stateCount)
    (first second : Word) :
    A.acceptableOnEach workers first second = A.acceptableOn workers first second := by
  rw [acceptableOnEach, acceptableOn]
  refine bind_congr fun start => bind_congr fun lasts => congrArg Except.ok ?_
  rw [Bool.eq_iff_iff, workers.any_eq_true, workers.any_eq_true]
  simp only [Bool.and_eq_true, reachMarks_iff, reachable_iff, get_finalMarks, and_comm]

end Automaton

end FiniteReach
