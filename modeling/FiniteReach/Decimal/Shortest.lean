/-!
# Shortest decimals

A binary fraction stands for all real numbers that round to it. `BinaryFraction.shortest` finds,
among the decimals with the fewest digits in that interval, the one nearest to the fraction. It
works in whole numbers: on the grid of decimals with `n` digits only the two neighbours of the
fraction need to be tried, and the first grid that has one in the interval wins.
-/

namespace FiniteReach

/-- The binary fraction `mantissa * 2 ^ exponent`. -/
structure BinaryFraction where
  mantissa : Nat
  exponent : Int
  /-- Whether the next smaller fraction is only half as far away as the next larger one. -/
  narrow : Bool
  deriving DecidableEq, Repr

/-- The decimal `digits * 10 ^ exponent`. -/
structure Decimal where
  digits : Nat
  exponent : Int
  deriving DecidableEq, Repr

/-- The magnitude that the bits of a finite double-precision number denote. -/
def BinaryFraction.ofBits (bits : Nat) : BinaryFraction :=
  let fraction := bits % Nat.pow 2 52
  let biased : Nat := bits / Nat.pow 2 52 % Nat.pow 2 11
  if biased = 0 then ⟨fraction, -1074, false⟩
  else ⟨Nat.pow 2 52 + fraction, (biased : Int) - 1075, fraction = 0 && 1 < biased⟩

/-- A power with any exponent, as numerator and denominator. -/
def power (base : Nat) (exponent : Int) : Nat × Nat :=
  if 0 ≤ exponent then (base.pow exponent.toNat, 1) else (1, base.pow (-exponent).toNat)

namespace BinaryFraction

/-- The exponent of the first decimal digit of a fraction that is not zero and not smaller than
`10 ^ (-400)`. -/
def magnitude (b : BinaryFraction) : Int :=
  let (num, den) := power 2 b.exponent
  ((Nat.toDigits 10 (b.mantissa * num * Nat.pow 10 400 / den)).length : Int) - 401

/-- The decimal of `count` digits that is nearest to the fraction, if one rounds to it. -/
def nearest? (b : BinaryFraction) (count : Nat) : Option Decimal :=
  let exponent := b.magnitude - (count - 1)
  let (num, den) := power 2 (b.exponent - 2)
  let (up, down) := power 10 exponent
  let value := 4 * b.mantissa * num * down
  let low := (4 * b.mantissa - if b.narrow then 1 else 2) * num * down
  let high := (4 * b.mantissa + 2) * num * down
  let unit := up * den
  let inside (d : Nat) : Bool :=
    if b.mantissa % 2 = 0 then low ≤ d * unit && d * unit ≤ high
    else low < d * unit && d * unit < high
  let below := value / unit
  let gap := 2 * (value % unit)
  let preferBelow := gap < unit || (gap = unit && below % 2 = 0)
  match inside below, inside (below + 1) with
  | true, true => some ⟨if preferBelow then below else below + 1, exponent⟩
  | true, false => some ⟨below, exponent⟩
  | false, true => some ⟨below + 1, exponent⟩
  | false, false => none

/-- The shortest decimal that rounds to the fraction. Seventeen digits are always enough. -/
def shortest (b : BinaryFraction) : Decimal :=
  ((List.range 17).findSome? fun i => b.nearest? (i + 1)).getD ⟨0, 0⟩

end BinaryFraction

/-! ## Writing decimals -/

namespace Decimal

/-- How a decimal is written. -/
structure Style where
  /-- The least exponent of the first digit that is written without an exponent. -/
  plainFrom : Int
  /-- The greatest such exponent. -/
  plainTo : Int

/-- Zeros. -/
def zeros (count : Nat) : List Char := List.replicate count '0'

/-- A decimal in a style; a number without a fraction keeps one zero of it, except before an
exponent. -/
def text (style : Style) (d : Decimal) : String :=
  let all := Nat.toDigits 10 d.digits
  let kept := (all.reverse.dropWhile (· = '0')).reverse
  let first : Int := d.exponent + (all.length - 1)
  String.ofList <|
    if kept.isEmpty then "0.0".toList
    else if style.plainFrom ≤ first && first ≤ style.plainTo then
      if first < 0 then
        '0' :: '.' :: zeros (-first - 1).toNat ++ kept
      else
        let whole := first.toNat + 1
        if kept.length ≤ whole then kept ++ zeros (whole - kept.length) ++ ".0".toList
        else kept.take whole ++ '.' :: kept.drop whole
    else
      let point := if kept.length = 1 then [] else '.' :: kept.drop 1
      kept.take 1 ++ point ++ 'e' :: (if first < 0 then '-' else '+') ::
        Nat.toDigits 10 first.natAbs

end Decimal

end FiniteReach
