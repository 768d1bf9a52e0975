import FiniteReach.Numeral
import FiniteReach.Sink

/-!
# Writing JSON texts

Values are written over several lines, two spaces deeper for each value around. The level of a
value is the number of values around it.
-/

namespace FiniteReach.Json.Print

/-- The start of a line at a level. -/
def newline (level : Nat) : Pieces := [[10], List.replicate (2 * level) 32]

/-- Parts with commas between them, each on a line of its own one level deeper. -/
def block (level : Nat) (opening closing : Bytes) (parts : List Pieces) : Pieces :=
  if parts.isEmpty then [opening, closing]
  else
    [opening] ++ [[44]].intercalate (parts.map fun part => newline (level + 1) ++ part) ++
      newline level ++ [closing]

/-- A number. -/
def natural (n : Nat) : Pieces := [Numeral.digits n]

/-- The value `null`. -/
def null : Pieces := [[110, 117, 108, 108]]

/-- The digit for a number below sixteen. -/
def hexDigit (n : Nat) : UInt8 := UInt8.ofNat (if n < 10 then 48 + n else 87 + n)

/-- How a byte of a text is written: quotes, backslashes and controls are escaped. -/
def escapedByte (b : UInt8) : Bytes :=
  if b = 34 then [92, 34]
  else if b = 92 then [92, 92]
  else if b = 8 then [92, 98]
  else if b = 9 then [92, 116]
  else if b = 10 then [92, 110]
  else if b = 12 then [92, 102]
  else if b = 13 then [92, 114]
  else if b < 32 then [92, 117, 48, 48, hexDigit (b.toNat / 16), hexDigit (b.toNat % 16)]
  else [b]

/-- A text between quotes. -/
def text (s : String) : Pieces := [[34] ++ (Text.utf8 s).flatMap escapedByte ++ [34]]

/-- A list of values. -/
def list (level : Nat) (values : List Pieces) : Pieces := block level [91] [93] values

/-- An object with its entries in order. -/
def object (level : Nat) (entries : List (String × Pieces)) : Pieces :=
  block level [123] [125] (entries.map fun (key, value) => text key ++ [[58, 32]] ++ value)

end FiniteReach.Json.Print
