import FiniteReach.Automaton.Builder

/-!
# Automata as records

A record holds an automaton as plain numbers with one row of successors for each state; it is what
the structured formats store. `Automaton.record` writes one, `Record.automaton?` checks one and
builds the automaton. The table is allocated first, and that may trap; then a row of the wrong length
is reported before anything else.
-/

namespace FiniteReach

/-- An automaton as plain numbers; `rows[s][a]` is the successor of `s` on `a`. -/
structure Record where
  alphabetSize : Nat
  initial : Nat
  finals : List Nat
  rows : List (List Nat)
  deriving DecidableEq, Repr

namespace Record

/-- The transitions of the rows, in the order of the table. -/
def transitions (r : Record) : List BuildStep :=
  r.rows.zipIdx.flatMap fun (row, s) => row.zipIdx.map fun (t, a) => .transition s a t

/-- The steps that build a record: the initial state, the final states, the transitions. -/
def steps (r : Record) : List BuildStep :=
  .initial r.initial :: r.finals.map .final ++ r.transitions

/-- Whether the table of a record can be allocated. If all rows are of the right length, the record
itself has an entry for each cell, and so many that no table could be allocated it never has. -/
def Allocates (r : Record) : Prop :=
  FiniteReach.Allocates r.alphabetSize r.rows.length ∨ ∀ row ∈ r.rows, row.length = r.alphabetSize

instance (r : Record) : Decidable r.Allocates := inferInstanceAs (Decidable (_ ∨ _))

/-- The automaton that a record describes. -/
def automaton? (r : Record) : Except (Halt FormatFault) Automaton :=
  if r.Allocates then
    match r.rows.zipIdx.find? fun (row, _) => row.length != r.alphabetSize with
    | some (row, s) => .error (.fault (.rowLength s r.alphabetSize row.length))
    | none => (Automaton.ofSteps r.alphabetSize r.rows.length r.steps).mapError .fault
  else .error .trap

end Record

/-- An automaton as a record. -/
def Automaton.record (A : Automaton) : Record where
  alphabetSize := A.alphabetSize
  initial := A.initial
  finals := A.finals
  rows := A.rows

end FiniteReach
