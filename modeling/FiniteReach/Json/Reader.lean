import FiniteReach.Json.Fault
import FiniteReach.Numeral

/-!
# Reading JSON byte by byte

A reader takes bytes off the front of a source. The next byte is looked at only when it is needed,
so whatever comes first, the end of the source, its failure or a byte that does not belong, is what
a reader reports.
-/

namespace FiniteReach.Json

/-- A computation that takes bytes off the front of a source or fails. -/
abbrev Reader := StateT Source (Except Fault)

/-- The bytes that may stand between values. -/
def isBlank (b : UInt8) : Bool := b = 32 || b = 10 || b = 9 || b = 13

namespace Reader

/-- The next byte, which stays in place. -/
def peek : Reader (Option UInt8) := fun src =>
  match src.bytes, src.failure with
  | b :: _, _ => .ok (some b, src)
  | [], none => .ok (none, src)
  | [], some cause => .error (.io cause)

/-- Takes the next byte away. -/
def drop : Reader Unit := fun src => .ok ((), { src with bytes := src.bytes.tail })

/-- The next byte, or `fault` at the end. -/
def next (fault : Fault) : Reader UInt8 := do
  match ← peek with
  | some b => do drop; return b
  | none => throw fault

/-- Takes blanks away; the byte after them stays in place. -/
def skipBlanks : Reader (Option UInt8) := fun src =>
  peek { src with bytes := src.bytes.dropWhile isBlank }

/-- Takes away and returns the digits that come next. -/
def digits : Reader Bytes := fun src =>
  .ok (src.bytes.takeWhile Numeral.isDigit,
    { src with bytes := src.bytes.dropWhile Numeral.isDigit })

/-- By what a loop counts that takes at least one byte in each round but the last. -/
abbrev Rounds := List UInt8

/-- One round for each byte that is left, and one more. The rounds are the bytes themselves, so that
nothing has to be counted. -/
def rounds : Reader Rounds := fun src => .ok (0 :: src.bytes, src)

/-- Takes away the rest of a literal. -/
def literal : Bytes → Reader Unit
  | [] => pure ()
  | b :: rest => do
    if (← next .endInValue) = b then literal rest else throw .expectedLiteral

/-- Takes away the colon after a key. -/
def colon : Reader Unit := do
  match ← skipBlanks with
  | some b => if b = 58 then drop else throw .expectedColon
  | none => throw .endInObject

end Reader

/-- Reads a source that holds one value and nothing else but blanks. -/
def document {α : Type} (value : Reader α) (src : Source) : Except Fault α := do
  let (a, src) ← value src
  let (after, _) ← Reader.skipBlanks src
  if after.isSome then throw .trailingCharacters
  return a

end FiniteReach.Json
