import FiniteReach.Automaton.Fault

/-!
# Running words

`step` follows one transition and `apply` a word. Both take any numbers and name the first one
that the automaton does not have; a state comes before a symbol, and a symbol is named with its
position in the word.
-/

namespace FiniteReach.Automaton

/-- The state in which a word ends that starts in `s`; its first symbol has the given position. -/
def follow (A : Automaton) (s : Fin A.stateCount) (position : Nat) :
    Word → Except IndexFault (Fin A.stateCount)
  | [] => .ok s
  | a :: w =>
    if h : a < A.alphabetSize then A.follow (A.next s ⟨a, h⟩) (position + 1) w
    else .error (.symbol a position A.alphabetSize)

/-- The state in which a word ends that starts in `s`. -/
def apply (A : Automaton) (s : Nat) (w : Word) : Except IndexFault Nat :=
  if h : s < A.stateCount then (A.follow ⟨s, h⟩ 0 w).map Fin.val
  else .error (.state s A.stateCount)

/-- The successor of `s` on `a`. -/
def step (A : Automaton) (s a : Nat) : Except IndexFault Nat :=
  if hs : s < A.stateCount then
    if ha : a < A.alphabetSize then .ok (A.next ⟨s, hs⟩ ⟨a, ha⟩).1
    else .error (.symbol a 0 A.alphabetSize)
  else .error (.state s A.stateCount)

end FiniteReach.Automaton
