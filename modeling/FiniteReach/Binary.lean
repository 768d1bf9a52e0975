import FiniteReach.Automaton.Record
import FiniteReach.Sink

/-!
# Automata in binary

The binary format stores every number and every length as eight bytes, the least significant first.
The fields of a record follow each other without separators; a list is preceded by its length.
What comes after the record is not looked at.
-/

namespace FiniteReach.Binary

/-- Why no record could be read or written. -/
inductive Fault where
  /-- The source ends within a number. -/
  | short
  /-- The file or device failed. -/
  | io (cause : IoFault)
  deriving DecidableEq, Repr

/-- The wording of a fault. -/
def Fault.message : Fault → String
  | .short => "io error: failed to fill whole buffer"
  | .io cause => s!"io error: {cause.message}"

/-! ## Writing -/

/-- A number as `count` bytes, the least significant first. -/
def littleEndian : (count : Nat) → Nat → Bytes
  | 0, _ => []
  | count + 1, n => UInt8.ofNat (n % 256) :: littleEndian count (n / 256)

/-- A number as it is stored. -/
def number (n : Nat) : Pieces := [littleEndian 8 n]

/-- A list of numbers as it is stored. -/
def numbers (ns : List Nat) : Pieces := number ns.length ++ ns.flatMap number

/-- A record as it is stored. -/
def pieces (r : Record) : Pieces :=
  number r.alphabetSize ++ number r.initial ++ numbers r.finals ++
    number r.rows.length ++ r.rows.flatMap numbers

/-! ## Reading -/

/-- A computation that takes bytes off the front of a source or fails. -/
abbrev Reader := StateT Source (Except Fault)

/-- The number that bytes denote, the least significant first. -/
def valueOf (bs : Bytes) : Nat := bs.foldr (fun b n => b.toNat + 256 * n) 0

/-- A stored number. -/
def readNumber : Reader Nat := fun src =>
  let stored := src.bytes.take 8
  if stored.length = 8 then .ok (valueOf stored, { src with bytes := src.bytes.drop 8 })
  else
    match src.failure with
    | none => .error .short
    | some cause => .error (.io cause)

/-- As many stored values as `count` says. -/
def readMany {α : Type} (item : Reader α) : (count : Nat) → Reader (List α)
  | 0 => return []
  | count + 1 => do
    let a ← item
    return a :: (← readMany item count)

/-- A stored list of values. -/
def readList {α : Type} (item : Reader α) : Reader (List α) := do
  readMany item (← readNumber)

/-- A stored record. -/
def readFields : Reader Record := do
  return {
    alphabetSize := ← readNumber
    initial := ← readNumber
    finals := ← readList readNumber
    rows := ← readList (readList readNumber) }

/-- The record with which a source starts. -/
def readRecord (src : Source) : Except Fault Record := return (← readFields src).1

end FiniteReach.Binary
