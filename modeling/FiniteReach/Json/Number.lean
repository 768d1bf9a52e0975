import FiniteReach.Decimal.Shortest
import FiniteReach.Json.Reader

/-!
# Numbers in JSON texts

A number without fraction and exponent is an integer if it fits in 64 bits, with a sign in 64 bits
in two's complement. Any other number is a double: its digits are taken into a 64-bit significand
as long as they fit, the digits after those only count, and the significand is multiplied or
divided by a power of ten. Doubles never become part of an automaton; they appear in messages.
-/

namespace FiniteReach.Json

/-- The value of a number. -/
inductive Number where
  | natural (n : Nat)
  /-- The number `-n`, which is less than zero. -/
  | negative (n : Nat)
  | real (x : Float)

/-- How doubles are shown. -/
def realStyle : Decimal.Style := ⟨-5, 15⟩

/-- A finite double as it is shown. -/
def showReal (x : Float) : String :=
  let bits := x.toBits.toNat
  let magnitude := BinaryFraction.ofBits (bits % Nat.pow 2 63)
  (if bits < Nat.pow 2 63 then "" else "-") ++ magnitude.shortest.text realStyle

/-- A number as something found. -/
def Number.found : Number → Found
  | .natural n => .integer n
  | .negative n => .integer (-n)
  | .real x => .real (showReal x)

/-- Appends digits to a significand as long as it stays below `bound`; also how many were
appended. -/
def absorb (bound significand : Nat) : Bytes → Nat × Nat
  | [] => (significand, 0)
  | b :: rest =>
    match Numeral.append? bound significand b with
    | none => (significand, 0)
    | some longer =>
      let (final, count) := absorb bound longer rest
      (final, count + 1)

/-- A double times a power of ten, or nothing if the product is too large. Divisors beyond the
greatest power that is a double are split; `rounds` bounds the parts. -/
def scale (x : Float) (exponent : Int) : (rounds : Nat) → Option Float
  | 0 => some x
  | rounds + 1 =>
    if exponent.natAbs ≤ 308 then
      let power := Float.ofScientific 1 false exponent.natAbs
      if 0 ≤ exponent then
        if (x * power).isInf then none else some (x * power)
      else some (x / power)
    else if x == 0.0 then some x
    else if 0 ≤ exponent then none
    else scale (x / Float.ofScientific 1 false 308) (exponent + 308) rounds

namespace Reader

/-- The double with a sign, a significand and a power of ten. -/
def real (positive : Bool) (significand : Nat) (exponent : Int) : Reader Number :=
  match scale (UInt64.ofNat significand).toFloat exponent 8 with
  | some x => return .real (if positive then x else -x)
  | none => throw .numberOutOfRange

/-- The rest of a number from its `e` on. An exponent that does not fit in 32 bits makes the number
zero or too large. -/
def exponent (positive : Bool) (significand : Nat) (start : Int) : Reader Number := do
  drop
  let sign ← peek
  if sign = some 43 || sign = some 45 then drop
  let first ← next .endInValue
  if !Numeral.isDigit first then throw .invalidNumber
  match Numeral.below? (Nat.pow 2 31) (first :: (← digits)) with
  | some value =>
    let _ ← peek
    real positive significand (if sign = some 45 then start - value else start + value)
  | none =>
    if significand ≠ 0 && sign ≠ some 45 then throw .numberOutOfRange
    let _ ← peek
    return .real (if positive then 0.0 else -0.0)

/-- The rest of a number from its point on. -/
def fraction (positive : Bool) (significand : Nat) (start : Int) : Reader Number := do
  drop
  let run ← digits
  let after ← peek
  if run.isEmpty then throw (if after.isSome then .invalidNumber else .endInValue)
  let (significand, count) := absorb limit significand run
  if after = some 101 || after = some 69 then exponent positive significand (start - count)
  else real positive significand (start - count)

/-- A number after its sign. -/
def number (positive : Bool) : Reader Number := do
  let first ← next .endInValue
  if !Numeral.isDigit first then throw .invalidNumber
  let run ← if first = 48 then pure [] else digits
  let after ← peek
  if first = 48 && after.any Numeral.isDigit then throw .invalidNumber
  let (significand, count) := absorb limit 0 (first :: run)
  let extra := run.length + 1 - count
  if after = some 46 then fraction positive significand extra
  else if after = some 101 || after = some 69 then exponent positive significand extra
  else if extra ≠ 0 then real positive significand extra
  else if positive then return .natural significand
  else if significand ≠ 0 && significand ≤ Nat.pow 2 63 then return .negative significand
  else real positive significand 0

end Reader

end FiniteReach.Json
