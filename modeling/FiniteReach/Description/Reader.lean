import FiniteReach.Automaton.Builder
import FiniteReach.Collect
import FiniteReach.Description.Layout

/-!
# Reading descriptions

A description is a stream of numbers: the size of the alphabet, the number of states, the initial
state, the number of final states, the final states, and one triple for each cell of the table.
Every byte that is no digit separates. The whole stream is read before the table is looked at, so
a failure of the source or a number that is too large comes first wherever it stands; then the
number of triples is checked, then their labels, and the automaton last.
-/

namespace FiniteReach

/-- Why no automaton could be read from a description. -/
inductive LoadFault where
  /-- The description, of this name if it is a file, could not be read. -/
  | unreadable (path : Option String) (cause : IoFault)
  /-- Its numbers describe no automaton. -/
  | malformed (fault : FormatFault)
  deriving DecidableEq, Repr

/-- The wording of a fault. -/
def LoadFault.message : LoadFault → String
  | .unreadable none _ => "cannot read automaton description"
  | .unreadable (some path) _ => s!"cannot read automaton description {path}"
  | .malformed fault => fault.message

namespace Description

/-- The numbers still to be read. -/
abbrev Numbers := List (Except NumberFault Nat)

/-- What comes before the triples. -/
structure Header where
  alphabetSize : Nat
  stateCount : Nat
  initial : Nat
  finals : List Nat
  deriving DecidableEq, Repr

/-- The fault of a description of which a number could not be had. -/
def numberFault (path : Option String) : NumberFault → LoadFault
  | .unread cause => .unreadable path cause
  | .tooLarge run => .malformed (.numberTooLarge run)

/-- The next number and those after it. -/
def readField (path : Option String) (field : HeaderField) :
    Numbers → Except LoadFault (Nat × Numbers)
  | [] => .error (.malformed (.unexpectedEnd field))
  | .error fault :: _ => .error (numberFault path fault)
  | .ok value :: rest => .ok (value, rest)

/-- The next `count` numbers, all final states, and those after them. -/
def readFinals (path : Option String) : Nat → Numbers → Except LoadFault (List Nat × Numbers)
  | 0, numbers => .ok ([], numbers)
  | count + 1, numbers => do
    let (state, numbers) ← readField path .finalState numbers
    let (states, numbers) ← readFinals path count numbers
    return (state :: states, numbers)

/-- The header and the numbers after it. -/
def readHeader (path : Option String) (numbers : Numbers) :
    Except LoadFault (Header × Numbers) := do
  let (alphabetSize, numbers) ← readField path .alphabetSize numbers
  let (stateCount, numbers) ← readField path .stateCount numbers
  let (initial, numbers) ← readField path .initialState numbers
  let (count, numbers) ← readField path .finalStateCount numbers
  let (finals, numbers) ← readFinals path count numbers
  return (⟨alphabetSize, stateCount, initial, finals⟩, numbers)

/-- What the triple of a cell says: the row and the column that it claims, and the target. -/
def entry {layout : Layout} {k n m : Nat} (flat : Array Nat) (needed : layout.needed? k n = some m)
    (enough : m ≤ flat.size) (cell : Fin (n * k)) : (Nat × Nat) × Nat :=
  have h := Layout.triple_lt needed (div_lt_of_cell cell.2) (mod_lt_of_cell cell.2)
  let base := 3 * layout.triple k n (cell / k) (cell % k)
  ((flat[base], flat[base + 1]), flat[base + 2])

/-- The automaton of a header and the numbers after it. -/
def table (layout : Layout) (header : Header) (flat : Array Nat) : Except FormatFault Automaton :=
  let k := header.alphabetSize
  let n := header.stateCount
  match needed : layout.needed? k n with
  | none => .error (.dimensionOverflow n k)
  | some m =>
    if short : flat.size < m then .error (.truncated m flat.size)
    else if layout = .stateMajor ∧ m < flat.size then .error (.trailing m flat.size)
    else
      let entry := entry flat needed (Nat.not_lt.1 short)
      let strange (cell : Fin (n * k)) : Bool :=
        layout = .stateMajor && (entry cell).1 != (cell / k, cell % k)
      match (List.finRange (n * k)).find? strange with
      | some cell => .error (.mislabelled cell (cell / k, cell % k) (entry cell).1)
      | none =>
        Automaton.ofSteps k n <|
          .initial header.initial :: header.finals.map .final ++
            (List.finRange (n * k)).map fun cell => .transition (cell / k) (cell % k) (entry cell).2

/-- The automaton that a source describes; `path` names the source in a fault. -/
def load (layout : Layout) (src : Source) (path : Option String := none) :
    Except LoadFault Automaton := do
  let (header, numbers) ← readHeader path src.numbers
  let flat ← (collect numbers).mapError (numberFault path)
  (table layout header flat.toArray).mapError .malformed

end Description

end FiniteReach
