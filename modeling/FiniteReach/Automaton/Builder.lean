import FiniteReach.Ascending
import FiniteReach.Automaton.Fault
import FiniteReach.Machine

/-!
# Building automata step by step

A builder starts from the two dimensions with every cell of the table empty. Steps set the initial
state, add final states and fill cells; a later step on the same cell wins. Steps find no fault: what
is wrong is remembered and `build` reports it. The order of its checks is the order of blame: the
dimensions, the first symbol out of range, the first source out of range, the initial state, the
final states in the order they were added, and the cells from the first to the last.

What steps come to is `Automaton.ofSteps`. On a machine (`Automaton.build?`) a builder traps if its
table cannot be allocated, and a step if the place of its cell is no word.
-/

namespace FiniteReach

/-- One step of building. -/
inductive BuildStep where
  /-- Runs start at `s`. -/
  | initial (s : Nat)
  /-- `s` is final. -/
  | final (s : Nat)
  /-- The successor of `s` on `a` is `t`. -/
  | transition (s : Nat) (a : Nat) (t : Nat)
  deriving DecidableEq, Repr

/-- Whether a table of these dimensions can be indexed. -/
def Fits (alphabetSize stateCount : Nat) : Prop :=
  stateCount * alphabetSize < limit ∧ stateCount < limit

instance (k n : Nat) : Decidable (Fits k n) := inferInstanceAs (Decidable (_ ∧ _))

/-- Whether a table of these dimensions can be allocated. If they do not fit, it has no cells. -/
def Allocates (alphabetSize stateCount : Nat) : Prop :=
  Fits alphabetSize stateCount → stateCount * alphabetSize < cellLimit

instance (k n : Nat) : Decidable (Allocates k n) := inferInstanceAs (Decidable (_ → _))

/-- An automaton under construction. -/
structure Builder where
  alphabetSize : Nat
  stateCount : Nat
  initial : Nat
  /-- The final states in the order they were added. -/
  finals : Array Nat
  /-- The cells of the table; none if the dimensions do not fit. -/
  cells : Array (Option Nat)
  /-- The first symbol out of range. -/
  strangeSymbol : Option Nat
  /-- The first source out of range. -/
  strangeSource : Option Nat
  size_cells : cells.size = if Fits alphabetSize stateCount then stateCount * alphabetSize else 0

namespace Builder

/-- A builder to which nothing has been told but the dimensions. -/
def blank (alphabetSize stateCount : Nat) : Builder where
  alphabetSize
  stateCount
  initial := 0
  finals := #[]
  cells :=
    Array.replicate (if Fits alphabetSize stateCount then stateCount * alphabetSize else 0) none
  strangeSymbol := none
  strangeSource := none
  size_cells := Array.size_replicate

/-- The builder with a target in the cell at a place, if there is such a cell. -/
def fill (b : Builder) (place t : Nat) : Builder :=
  { b with
    cells := b.cells.setIfInBounds place (some t)
    size_cells := by simpa using b.size_cells }

/-- The builder that has been told one more step. A transition from or on something out of range fills
no cell and the first such symbol and source are kept. -/
def tell (b : Builder) : BuildStep → Builder
  | .initial s => { b with initial := s }
  | .final s => { b with finals := b.finals.push s }
  | .transition s a t =>
    if b.alphabetSize ≤ a then { b with strangeSymbol := b.strangeSymbol <|> some a }
    else if b.stateCount ≤ s then { b with strangeSource := b.strangeSource <|> some s }
    else b.fill (s * b.alphabetSize + a) t

/-- The builder that has been told several steps, in order. -/
def tellAll (b : Builder) (steps : List BuildStep) : Builder := steps.foldl tell b

/-! ## On a machine -/

/-- A blank builder, unless its cells cannot be allocated. -/
def new (alphabetSize stateCount : Nat) : Option Builder :=
  if Allocates alphabetSize stateCount then some (blank alphabetSize stateCount) else none

/-- The builder after one more step. A place is worked out before it is known whether there are
cells. -/
def apply (b : Builder) : BuildStep → Option Builder
  | .transition s a t =>
    if s < b.stateCount ∧ a < b.alphabetSize then do
      let place ← Machine.cell? s b.alphabetSize a
      return b.fill place t
    else some (b.tell (.transition s a t))
  | step => some (b.tell step)

/-- The builder after several steps, in order. -/
def run (b : Builder) (steps : List BuildStep) : Option Builder := steps.foldlM apply b

/-! ## Building -/

/-- The targets of the cells from cell `i` on, or the fault of the first one that has none or one
that is out of range. -/
def targets (k n : Nat) : Nat → List (Option Nat) → Except FormatFault (List (Fin n))
  | _, [] => .ok []
  | i, none :: _ => .error (.missingTransition (i / k) (i % k))
  | i, some t :: rest =>
    if h : t < n then (targets k n (i + 1) rest).map (⟨t, h⟩ :: ·)
    else .error (.stateOutOfRange .target t n)

theorem length_of_targets {k n i : Nat} {cells : List (Option Nat)} {ts : List (Fin n)}
    (h : targets k n i cells = .ok ts) : ts.length = cells.length := by
  induction cells generalizing i ts with
  | nil => simp_all [targets]
  | cons cell rest ih =>
    cases cell with
    | none => simp [targets] at h
    | some t =>
      simp only [targets] at h
      split at h
      · cases hr : targets k n (i + 1) rest with
        | error e => simp [hr, Except.map] at h
        | ok us =>
          simp only [hr, Except.map, Except.ok.injEq] at h
          simp [← h, ih hr]
      · simp at h

/-- The automaton that was built, or the first thing that is wrong with it. -/
def build (b : Builder) : Except FormatFault Automaton :=
  if fits : Fits b.alphabetSize b.stateCount then
    match b.strangeSymbol, b.strangeSource with
    | some a, _ => .error (.symbolOutOfRange a b.alphabetSize)
    | none, some s => .error (.stateOutOfRange .source s b.stateCount)
    | none, none =>
      if initial_lt : b.initial < b.stateCount then
        match hf : b.finals.toList.find? fun f => b.stateCount ≤ f with
        | some f => .error (.stateOutOfRange .final f b.stateCount)
        | none =>
          match ht : targets b.alphabetSize b.stateCount 0 b.cells.toList with
          | .error fault => .error fault
          | .ok ts =>
            .ok {
              alphabetSize := b.alphabetSize
              stateCount := b.stateCount
              initial := b.initial
              finals := ascending b.finals.toList
              table := (ts.map Fin.val).toArray
              initial_lt
              finals_lt := by simpa [mem_ascending] using hf
              finals_ascending := ascending_pairwise _
              size_table := by simpa [fits] using (length_of_targets ht).trans b.size_cells
              target_lt := by simp
              stateCount_lt := fits.2
              size_lt := fits.1 }
      else .error (.stateOutOfRange .initial b.initial b.stateCount)
  else .error (.dimensionOverflow b.stateCount b.alphabetSize)

end Builder

namespace Automaton

/-- What steps build from dimensions. -/
def ofSteps (alphabetSize stateCount : Nat) (steps : List BuildStep) :
    Except FormatFault Automaton :=
  ((Builder.blank alphabetSize stateCount).tellAll steps).build

/-- What steps build from dimensions, unless the machine traps on the way. -/
def build? (alphabetSize stateCount : Nat) (steps : List BuildStep) :
    Option (Except FormatFault Automaton) := do
  let start ← Builder.new alphabetSize stateCount
  let told ← start.run steps
  return told.build

end Automaton

end FiniteReach
