import FiniteReach.Json.Text

/-!
# Skipping values

The value of an unknown field is read only so far as to find its end. Its texts need not be UTF-8,
its numbers need not fit and it may be nested to any depth; otherwise the grammar is the same.
-/

namespace FiniteReach.Json

/-- What a value that is being skipped lies in. -/
inductive Frame where
  | list
  | object
  deriving DecidableEq, Repr

/-- Where skipping stands. -/
inductive Phase where
  /-- A value comes next. -/
  | value
  /-- A value is behind. -/
  | behind
  deriving DecidableEq, Repr

namespace Frame

/-- The byte that closes a frame. -/
def closing : Frame → UInt8
  | .list => 93
  | .object => 125

/-- The fault of a source that ends within a frame. -/
def atEnd : Frame → Fault
  | .list => .endInList
  | .object => .endInObject

/-- The fault of a byte that neither continues a frame nor closes it. -/
def unexpected : Frame → Fault
  | .list => .expectedCommaOrBracket
  | .object => .expectedCommaOrBrace

end Frame

namespace Reader

/-- Skips an exponent from its `e` on. -/
def skipExponent : Reader Unit := do
  drop
  let sign ← peek
  if sign = some 43 || sign = some 45 then drop
  if !Numeral.isDigit (← next .invalidNumber) then throw .invalidNumber
  let _ ← digits
  let _ ← peek

/-- Skips a number after its sign. -/
def skipNumber : Reader Unit := do
  let first ← next .invalidNumber
  if !Numeral.isDigit first then throw .invalidNumber
  if first ≠ 48 then let _ ← digits
  let after ← peek
  if first = 48 && after.any Numeral.isDigit then throw .invalidNumber
  if after = some 46 then
    drop
    let run ← digits
    let after ← peek
    if run.isEmpty then throw .invalidNumber
    if after = some 101 || after = some 69 then skipExponent
  else if after = some 101 || after = some 69 then skipExponent

/-- Skips a text after its opening quote. -/
def skipText : Rounds → Reader Unit
  | [] => throw .endInText
  | _ :: rounds => do
    let b ← next .endInText
    if b = 34 then return ()
    else if b = 92 then
      let letter ← next .endInText
      if letter = 117 then
        let _ ← hexEscape
      else if (shortEscape? letter).isNone then throw .invalidEscape
      skipText rounds
    else if b < 32 then throw .controlCharacter
    else skipText rounds

/-- Skips what comes before the next value of a frame: the key of an object's entry and the colon
after it. -/
def skipKey : Frame → Reader Unit
  | .list => return ()
  | .object => do
    match ← skipBlanks with
    | some b => if b = 34 then drop else throw .keyNotText
    | none => throw .endInObject
    skipText (← rounds)
    colon

/-- Skips a value that has no parts, or opens one that has. -/
def skipOrOpen : Reader (Option Frame) := do
  match ← skipBlanks with
  | none => throw .endInValue
  | some b =>
    if b = 110 then do drop; literal [117, 108, 108]; return none
    else if b = 116 then do drop; literal [114, 117, 101]; return none
    else if b = 102 then do drop; literal [97, 108, 115, 101]; return none
    else if b = 45 then do drop; skipNumber; return none
    else if Numeral.isDigit b then do skipNumber; return none
    else if b = 34 then do drop; skipText (← rounds); return none
    else if b = 91 then do drop; return some .list
    else if b = 123 then do drop; return some .object
    else throw .expectedValue

/-- Whether a frame is closed by the next byte, which is then taken away. -/
def closes (frame : Frame) : Reader Bool := do
  match ← skipBlanks with
  | none => throw frame.atEnd
  | some b => if b = frame.closing then do drop; return true else return false

/-- Takes away the comma that must come next in a frame. -/
def comma (frame : Frame) : Reader Unit := do
  if (← skipBlanks) = some 44 then drop else throw frame.unexpected

/-- Skips what is left of the frames around, innermost first. -/
def skipFrom (phase : Phase) (frames : List Frame) : Rounds → Reader Unit
  | [] => throw .endInValue
  | _ :: rounds => do
    match phase, frames with
    | .value, frames =>
      match ← skipOrOpen with
      | none => skipFrom .behind frames rounds
      | some frame =>
        if ← closes frame then skipFrom .behind frames rounds
        else do
          skipKey frame
          skipFrom .value (frame :: frames) rounds
    | .behind, [] => return ()
    | .behind, frame :: outer =>
      if ← closes frame then skipFrom .behind outer rounds
      else do
        comma frame
        skipKey frame
        skipFrom .value frames rounds

/-- Skips a value. -/
def skip : Reader Unit := do
  skipFrom .value [] (← rounds)

end Reader

end FiniteReach.Json
