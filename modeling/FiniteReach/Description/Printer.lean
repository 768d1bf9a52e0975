import FiniteReach.Automaton.Basic

/-!
# Writing descriptions

The printer writes the numbers of a description line by line: the dimensions and the initial state,
the final states after their number, and one line for each triple, state by state.
-/

namespace FiniteReach.Description

/-- Numbers with a space between them, and the end of the line. -/
def line (numbers : List Nat) : Bytes := [32].intercalate (numbers.map Numeral.digits) ++ [10]

/-- The lines of an automaton's description. -/
def lines (A : Automaton) : List Bytes :=
  line [A.alphabetSize, A.stateCount, A.initial] ::
    line (A.finals.length :: A.finals) ::
      A.transitions.map fun (s, a, t) => line [s, a, t]

end FiniteReach.Description
