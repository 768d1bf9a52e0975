import FiniteReach.Automaton.Fault

/-!
# Table layouts

The transitions of a description are triples of row, column and target. A layout says which triple
holds a cell of the table. `needed?` counts the numbers that a table takes, and no triple of a cell
lies beyond them (`triple_lt`).
-/

namespace FiniteReach

/-- Where the triple of a cell stands. -/
inductive Layout where
  /-- The triples follow the table state by state; rows and columns are checked. -/
  | stateMajor
  /-- The triples of a state start at a multiple of the number of states; rows, columns and
  triples that hold no cell are ignored. -/
  | legacy
  deriving DecidableEq, Repr

/-- A name that no layout has. -/
inductive LayoutFault where
  | unknown (given : String)
  deriving DecidableEq, Repr

/-- The wording of a fault. -/
def LayoutFault.message : LayoutFault → String
  | .unknown given => s!"Unknown table layout: {given}. Valid options: state-major, legacy"

namespace Layout

/-- The name under which a layout is printed and stored. -/
def name : Layout → String
  | .stateMajor => "state-major"
  | .legacy => "legacy"

/-- The layout of a name; each has several, and case does not matter. The names are ASCII, and no
other character has the lower case of a letter in them. -/
def ofName (given : String) : Except LayoutFault Layout :=
  let folded := String.ofList (given.toList.map Char.toLower)
  if folded ∈ ["state-major", "statemajor", "corrected"] then .ok .stateMajor
  else if folded ∈ ["legacy", "compat"] then .ok .legacy
  else .error (.unknown given)

/-- The index of the triple that holds the cell of `s` and `a` in a table of `n` states and `k`
symbols. -/
def triple (layout : Layout) (k n s a : Nat) : Nat :=
  match layout with
  | .stateMajor => s * k + a
  | .legacy => s * n + a

/-- How many numbers a table of `n` states and `k` symbols takes, unless there are too many. -/
def needed? (layout : Layout) (k n : Nat) : Option Nat :=
  if limit ≤ n * k then none
  else
    let count :=
      match layout with
      | .stateMajor => 3 * (n * k)
      | .legacy => if n * k = 0 then 0 else 3 * ((n - 1) * n + k)
    if count < limit then some count else none

/-- The last number of a cell's triple is among the numbers that its table takes. -/
theorem triple_lt {layout : Layout} {k n s a m : Nat} (h : layout.needed? k n = some m)
    (hs : s < n) (ha : a < k) : 3 * layout.triple k n s a + 2 < m := by
  have hcell := cell_lt hs ha
  simp only [needed?] at h
  split at h
  · simp at h
  · cases layout with
    | stateMajor =>
      simp only [Option.ite_none_right_eq_some, Option.some.injEq] at h
      simp only [triple]
      omega
    | legacy =>
      have hpos : n * k ≠ 0 := by omega
      simp only [hpos, ↓reduceIte, Option.ite_none_right_eq_some, Option.some.injEq] at h
      have hrow : s * n ≤ (n - 1) * n := Nat.mul_le_mul_right n (by omega)
      simp only [triple]
      omega

end Layout

end FiniteReach
