/-!
# Ascending lists

`ascending` puts numbers in order and each of them once. It merges ever longer ascending lists, of
which there are half as many after each round. Main statements: it keeps the members
(`mem_ascending`), and the result is strictly ascending (`ascending_pairwise`).
-/

namespace FiniteReach

namespace Ascending

/-! ## Merging two lists -/

/-- The list that starts with `x` merged with another one; `rest` merges what comes after `x`. -/
def mergeFrom (x : Nat) (rest : List Nat → List Nat) : List Nat → List Nat
  | [] => x :: rest []
  | y :: ys =>
    if x < y then x :: rest (y :: ys)
    else if x = y then x :: rest ys
    else y :: mergeFrom x rest ys

/-- Two ascending lists as one. -/
def merge : List Nat → List Nat → List Nat
  | [], ys => ys
  | x :: xs, ys => mergeFrom x (merge xs) ys

theorem mem_merge {u : Nat} {xs ys : List Nat} : u ∈ merge xs ys ↔ u ∈ xs ∨ u ∈ ys := by
  induction xs generalizing ys with
  | nil => simp [merge]
  | cons x xs ih =>
    simp only [merge]
    induction ys with
    | nil => simp [mergeFrom, ih]
    | cons y ys ihy => grind [mergeFrom]

theorem merge_pairwise {xs ys : List Nat} (hx : xs.Pairwise (· < ·)) (hy : ys.Pairwise (· < ·)) :
    (merge xs ys).Pairwise (· < ·) := by
  induction xs generalizing ys with
  | nil => exact hy
  | cons x xs ih =>
    obtain ⟨hx, hxs⟩ := List.pairwise_cons.1 hx
    simp only [merge]
    induction ys with
    | nil => simp only [mergeFrom]; exact List.pairwise_cons.2 ⟨by grind [mem_merge], ih hxs hy⟩
    | cons y ys ihy =>
      obtain ⟨hlt, hys⟩ := List.pairwise_cons.1 hy
      simp only [mergeFrom]
      split
      · exact List.pairwise_cons.2 ⟨by grind [mem_merge], ih hxs hy⟩
      · split
        · exact List.pairwise_cons.2 ⟨by grind [mem_merge], ih hxs hys⟩
        · refine List.pairwise_cons.2 ⟨fun u hu => ?_, ihy hys⟩
          have hu : u ∈ merge (x :: xs) ys := hu
          rcases mem_merge.1 hu with hu | hu
          · grind
          · exact hlt u hu

/-! ## Merging many lists -/

/-- Merges each list with its neighbour. -/
def mergePairs : List (List Nat) → List (List Nat)
  | xs :: ys :: rest => merge xs ys :: mergePairs rest
  | lists => lists

/-- Merges all lists, pair by pair for some rounds. -/
def mergeAll : (rounds : Nat) → List (List Nat) → List Nat
  | 0, lists => lists.foldr merge []
  | _ + 1, [] => []
  | _ + 1, [xs] => xs
  | rounds + 1, lists => mergeAll rounds (mergePairs lists)

theorem mem_flatten_mergePairs {u : Nat} {lists : List (List Nat)} :
    u ∈ (mergePairs lists).flatten ↔ u ∈ lists.flatten := by
  fun_induction mergePairs lists with
  | case1 xs ys rest ih => simp only [List.flatten_cons, List.mem_append, mem_merge, ih, or_assoc]
  | case2 => rfl

theorem pairwise_of_mem_mergePairs {lists : List (List Nat)}
    (h : ∀ xs ∈ lists, xs.Pairwise (· < ·)) : ∀ xs ∈ mergePairs lists, xs.Pairwise (· < ·) := by
  fun_induction mergePairs lists with
  | case1 xs ys rest ih => grind [merge_pairwise]
  | case2 => exact h

theorem mem_mergeAll {u : Nat} {rounds : Nat} {lists : List (List Nat)} :
    u ∈ mergeAll rounds lists ↔ u ∈ lists.flatten := by
  fun_induction mergeAll rounds lists with
  | case1 lists => induction lists with
    | nil => simp
    | cons xs rest ih => simp [mem_merge, ih]
  | case2 => simp
  | case3 => simp
  | case4 rounds lists _ _ ih => rw [ih, mem_flatten_mergePairs]

theorem mergeAll_pairwise {rounds : Nat} {lists : List (List Nat)}
    (h : ∀ xs ∈ lists, xs.Pairwise (· < ·)) : (mergeAll rounds lists).Pairwise (· < ·) := by
  fun_induction mergeAll rounds lists with
  | case1 lists => induction lists with
    | nil => simp
    | cons xs rest ih => exact merge_pairwise (h xs (by simp)) (ih fun ys hy => h ys (by simp [hy]))
  | case2 => simp
  | case3 _ xs => exact h xs (by simp)
  | case4 rounds lists _ _ ih => exact ih (pairwise_of_mem_mergePairs h)

end Ascending

/-! ## Ordering a list -/

/-- The members of a list in ascending order, each once. -/
def ascending (numbers : List Nat) : List Nat :=
  Ascending.mergeAll numbers.length (numbers.map fun n => [n])

theorem mem_ascending {u : Nat} {numbers : List Nat} : u ∈ ascending numbers ↔ u ∈ numbers := by
  rw [ascending, Ascending.mem_mergeAll]
  induction numbers with
  | nil => simp
  | cons n rest ih => simp_all

theorem ascending_pairwise (numbers : List Nat) : (ascending numbers).Pairwise (· < ·) :=
  Ascending.mergeAll_pairwise (by simp)

end FiniteReach
