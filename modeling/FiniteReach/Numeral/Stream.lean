import FiniteReach.Collect
import FiniteReach.Numeral
import FiniteReach.Source

/-!
# Numbers in a byte stream

Descriptions and words are read alike: each maximal digit run is one number and every other byte
separates. `runs` lists the runs of a finished stream, `closedRuns` those that a separator ends,
which is all that is known when a source fails. A run whose value is not smaller than `limit` is
an error in its place. `Source.next?` takes one number off a source, together with the byte that
ends its run; taken one after another, they are `Source.numbers`.
-/

namespace FiniteReach

/-- Why the next number of a source could not be had. -/
inductive NumberFault where
  /-- The source failed. -/
  | unread (cause : IoFault)
  /-- The run's value is not smaller than `limit`. -/
  | tooLarge (run : Bytes)
  deriving DecidableEq, Repr

namespace Numeral

/-- The stretches between separators, the empty ones included. -/
def stretches (bs : Bytes) : List Bytes := bs.splitOnP fun b => !isDigit b

/-- The maximal digit runs. -/
def runs (bs : Bytes) : List Bytes := (stretches bs).filter fun run => !run.isEmpty

/-- The maximal digit runs that a separator follows. -/
def closedRuns (bs : Bytes) : List Bytes := (stretches bs).dropLast.filter fun run => !run.isEmpty

/-- The number of a run, or the error `fault` makes of a run that is too large. -/
def ofRun {ε : Type} (fault : Bytes → ε) (run : Bytes) : Except ε Nat :=
  match below? limit run with
  | some n => .ok n
  | none => .error (fault run)

theorem ofRun_eq {ε : Type} (fault : Bytes → ε) (run : Bytes) :
    ofRun fault run = if value run < limit then .ok (value run) else .error (fault run) := by
  rw [ofRun, below?_eq run (by decide)]
  split <;> split <;> simp_all

/-- Goes on with a digit run of which `run` has been read, or skips to the next one if that is
nothing: the whole run, and what follows the separator that ends it, unless the bytes end first. -/
def scan (run : Bytes) : Bytes → Bytes × Option Bytes
  | [] => (run, none)
  | b :: bs =>
    if isDigit b then scan (run ++ [b]) bs
    else if run.isEmpty then scan [] bs
    else (run, some bs)

end Numeral

/-- The numbers that a source delivers, in order; the failure of a failing source comes last. -/
def Source.numbers (src : Source) : List (Except NumberFault Nat) :=
  match src.failure with
  | none => (Numeral.runs src.bytes).map (Numeral.ofRun .tooLarge)
  | some cause =>
    (Numeral.closedRuns src.bytes).map (Numeral.ofRun .tooLarge) ++ [.error (.unread cause)]

/-- The next number of a source, or its failure, and the source behind it. A run that a failure cuts
off is no number. -/
def Source.next? (src : Source) : Option (Except NumberFault Nat × Source) :=
  match Numeral.scan [] src.bytes, src.failure with
  | (run, some rest), _ => some (Numeral.ofRun .tooLarge run, { src with bytes := rest })
  | (_, none), some cause => some (.error (.unread cause), { src with bytes := [] })
  | (run, none), none =>
    if run.isEmpty then none else some (Numeral.ofRun .tooLarge run, { src with bytes := [] })

end FiniteReach
