import FiniteReach.Numeral

/-!
# Words and arrays of a machine

The definitions of this library compute with numbers of any size. The machine that runs them has
words, which are the numbers smaller than `limit`, and no array of `cellLimit` cells or more. It traps
where a number that it works out is no word, and where it is to allocate a larger array. A computation
that may trap has no result then, or halts.
-/

namespace FiniteReach

/-- The number of cells that no array has. A cell takes 16 bytes, and an array takes fewer than
`2 ^ 63`. -/
abbrev cellLimit : Nat := 576460752303423488

/-- Why a computation comes to nothing. -/
inductive Halt (ε : Type) where
  /-- The machine has trapped. -/
  | trap
  /-- What was asked for is not to be had. -/
  | fault (cause : ε)
  deriving DecidableEq, Repr

namespace Machine

/-- A number that is a word. -/
def word? (value : Nat) : Option Nat := if value < limit then some value else none

/-- The place of a cell in a table that is kept row by row. -/
def cell? (row width column : Nat) : Option Nat := do
  let start ← word? (row * width)
  word? (start + column)

theorem word?_of_lt {value : Nat} (h : value < limit) : word? value = some value := if_pos h

theorem word?_of_le {value : Nat} (h : limit ≤ value) : word? value = none :=
  if_neg (Nat.not_lt.2 h)

/-- The row does not start beyond the cell. -/
theorem cell?_eq (row width column : Nat) :
    cell? row width column = word? (row * width + column) := by
  by_cases h : row * width < limit
  · rw [cell?, word?_of_lt h]
    rfl
  · rw [cell?, word?_of_le (Nat.not_lt.1 h), word?_of_le (by omega)]
    rfl

end Machine

end FiniteReach
