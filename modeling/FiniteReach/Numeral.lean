import FiniteReach.Text.Utf8

/-!
# Decimal numerals

A numeral is a run of ASCII digits. `value` reads one of any length and `digits` writes a number
without leading zeros. Numbers of the program are smaller than `limit`; a numeral whose value is
not is refused wherever numerals are read.
-/

namespace FiniteReach

/-- Every number that is read, stored or indexed with is smaller than this. -/
abbrev limit : Nat := 18446744073709551616

namespace Numeral

/-- The ASCII digits `0` to `9`. -/
def isDigit (b : UInt8) : Bool := 48 ≤ b && b ≤ 57

/-- A number with a digit appended. -/
def append (v : Nat) (b : UInt8) : Nat := 10 * v + (b.toNat - 48)

/-- The number that a digit run denotes; leading zeros add nothing. -/
def value (run : Bytes) : Nat := run.foldl append 0

/-- A number with a digit appended if it is then smaller than `bound`. -/
def append? (bound v : Nat) (b : UInt8) : Option Nat :=
  if append v b < bound then some (append v b) else none

/-- The number that a digit run denotes if it is smaller than `bound`. A run is read only so far as
to know that. -/
def below? (bound : Nat) (run : Bytes) : Option Nat := run.foldlM (append? bound) 0

/-- The shortest digit run that denotes `n`. -/
def digits (n : Nat) : Bytes := (Nat.toDigits 10 n).map fun c => UInt8.ofNat c.toNat

@[simp] theorem value_nil : value [] = 0 := rfl

theorem value_append_singleton (run : Bytes) (b : UInt8) :
    value (run ++ [b]) = 10 * value run + (b.toNat - 48) := by
  simp [value, append]

theorem le_foldl_append (run : Bytes) (v : Nat) : v ≤ run.foldl append v := by
  induction run generalizing v with
  | nil => exact Nat.le_refl v
  | cons b run ih => exact Nat.le_trans (by simp only [append]; omega) (ih (append v b))

theorem foldlM_append? {bound v : Nat} (run : Bytes) (hv : v < bound) :
    run.foldlM (append? bound) v =
      if run.foldl append v < bound then some (run.foldl append v) else none := by
  induction run generalizing v with
  | nil => simp [hv]
  | cons b run ih =>
    by_cases h : append v b < bound
    · by_cases hl : run.foldl append (append v b) < bound <;>
        simp [List.foldlM_cons, append?, h, ih h, hl]
    · have hle := le_foldl_append run (append v b)
      have hn : ¬ (b :: run).foldl append v < bound := by simp only [List.foldl_cons]; omega
      rw [if_neg hn]
      simp [List.foldlM_cons, append?, h]

theorem below?_eq {bound : Nat} (run : Bytes) (h : 0 < bound) :
    below? bound run = if value run < bound then some (value run) else none :=
  foldlM_append? run h

theorem digits_of_lt {n : Nat} (h : n < 10) : digits n = [UInt8.ofNat (48 + n)] := by
  match n, h with
  | 0, _ | 1, _ | 2, _ | 3, _ | 4, _ | 5, _ | 6, _ | 7, _ | 8, _ | 9, _ => rfl

end Numeral

end FiniteReach
