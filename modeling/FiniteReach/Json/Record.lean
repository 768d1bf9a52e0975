import FiniteReach.Automaton.Record
import FiniteReach.Json.Printer
import FiniteReach.Json.Value

/-!
# Automata as JSON texts

An automaton is an object of four fields: the size of the alphabet, the initial state, the final
states and one list of successors for each state.
-/

namespace FiniteReach.Json

/-- A record of which not every field has been read. -/
structure Draft where
  alphabetSize : Option Nat := none
  initial : Option Nat := none
  finals : Option (List Nat) := none
  rows : Option (List (List Nat)) := none

/-- An index or a size. -/
def index : Reader Nat := Reader.natural "usize"

/-- The fields of an automaton. -/
def recordShape : Shape Draft where
  title := "struct AutomatonData"
  fields := [
    ⟨"alphabet_size", fun d => d.alphabetSize.isSome, fun d => do
      return { d with alphabetSize := ← index }⟩,
    ⟨"initial_state", fun d => d.initial.isSome, fun d => do
      return { d with initial := ← index }⟩,
    ⟨"final_states", fun d => d.finals.isSome, fun d => do
      return { d with finals := ← Reader.list index }⟩,
    ⟨"transitions", fun d => d.rows.isSome, fun d => do
      return { d with rows := ← Reader.list (Reader.list index) }⟩]

/-- Reads an automaton's record. -/
def record : Reader Record := do
  let draft ← Reader.record recordShape {}
  return {
    alphabetSize := ← required "alphabet_size" draft.alphabetSize
    initial := ← required "initial_state" draft.initial
    finals := ← required "final_states" draft.finals
    rows := ← required "transitions" draft.rows }

/-- The record that a source holds. -/
def readRecord (src : Source) : Except Fault Record := document record src

/-- The pieces of an automaton's JSON text. -/
def recordPieces (r : Record) : Pieces :=
  Print.object 0 [
    ("alphabet_size", Print.natural r.alphabetSize),
    ("initial_state", Print.natural r.initial),
    ("final_states", Print.list 1 (r.finals.map Print.natural)),
    ("transitions", Print.list 1 (r.rows.map fun row => Print.list 2 (row.map Print.natural)))]

end FiniteReach.Json
