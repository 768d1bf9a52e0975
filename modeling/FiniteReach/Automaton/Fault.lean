import FiniteReach.Automaton.Basic

/-!
# What can be wrong with an automaton

`FormatFault` lists the ways in which numbers can fail to describe an automaton and `IndexFault`
the ways in which a question can name something the automaton does not have.
-/

namespace FiniteReach

/-- The fields that come before the transitions of a description. -/
inductive HeaderField where
  | alphabetSize
  | stateCount
  | initialState
  | finalStateCount
  | finalState
  deriving DecidableEq, Repr

/-- The name of a field. -/
def HeaderField.text : HeaderField → String
  | .alphabetSize => "alphabet size"
  | .stateCount => "state count"
  | .initialState => "initial state"
  | .finalStateCount => "final state count"
  | .finalState => "final state"

/-- What a state is used as. -/
inductive StateRole where
  | source
  | initial
  | final
  | target
  deriving DecidableEq, Repr

/-- The name of a role. -/
def StateRole.text : StateRole → String
  | .source => "transition source"
  | .initial => "initial state"
  | .final => "final state"
  | .target => "transition target"

/-- Why numbers describe no automaton. -/
inductive FormatFault where
  /-- The numbers end before this field. -/
  | unexpectedEnd (field : HeaderField)
  /-- A digit run is not smaller than `limit`. -/
  | numberTooLarge (run : Bytes)
  /-- The table has too many cells to be indexed. -/
  | dimensionOverflow (stateCount alphabetSize : Nat)
  /-- A state is not smaller than the number of states. -/
  | stateOutOfRange (role : StateRole) (state stateCount : Nat)
  /-- A symbol is not smaller than the size of the alphabet. -/
  | symbolOutOfRange (symbol alphabetSize : Nat)
  /-- A cell of the table was never set. -/
  | missingTransition (state symbol : Nat)
  /-- A row has not one entry for each symbol. -/
  | rowLength (state expected found : Nat)
  /-- There are fewer numbers than the table needs. -/
  | truncated (expected found : Nat)
  /-- There are more numbers than the table takes. -/
  | trailing (expected found : Nat)
  /-- The triple at `index` names another cell than the one it stands for. -/
  | mislabelled (index : Nat) (expected found : Nat × Nat)
  deriving DecidableEq, Repr

/-- The wording of a fault. -/
def FormatFault.message : FormatFault → String
  | .unexpectedEnd field => s!"unexpected end of input while reading {field.text}"
  | .numberTooLarge run => s!"number {Text.ofAscii run} is too large"
  | .dimensionOverflow n k => s!"automaton dimensions {n}x{k} are too large"
  | .stateOutOfRange role s n => s!"{role.text} {s} is out of range (automaton has {n} states)"
  | .symbolOutOfRange a k => s!"symbol {a} is out of range (alphabet has {k} symbols)"
  | .missingTransition s a => s!"no transition defined for state {s} on symbol {a}"
  | .rowLength s expected found => s!"row for state {s} has {found} entries, expected {expected}"
  | .truncated expected found =>
    s!"transition list is truncated: expected {expected} integers, found {found}"
  | .trailing expected found =>
    s!"transition list has trailing data: expected {expected} integers, found {found}"
  | .mislabelled index (s, a) (row, column) =>
    s!"transition triple {index} is labelled ({row}, {column}) but sits at ({s}, {a})"

/-- Why a question about an automaton has no answer. -/
inductive IndexFault where
  /-- A state is not smaller than the number of states. -/
  | state (state stateCount : Nat)
  /-- A symbol, found at this position of its word, is not smaller than the size of the alphabet. -/
  | symbol (symbol position alphabetSize : Nat)
  deriving DecidableEq, Repr

/-- The wording of a fault. -/
def IndexFault.message : IndexFault → String
  | .state s n => s!"state {s} is out of range (automaton has {n} states)"
  | .symbol a i k => s!"symbol {a} at position {i} is out of range (alphabet has {k} symbols)"

end FiniteReach
