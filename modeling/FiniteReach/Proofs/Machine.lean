import FiniteReach.Machine

/-!
# What a machine does

What the definitions of this library index with is in range by its type. A machine has arrays that can
be asked for any index; it traps where an index is out of range, as it does where a number is no word.
The operations here have no result where the machine traps. To show that something never traps is to
show that the machine, which does it with these operations, gets the result that it has elsewhere.

A `loop` goes round until a round ends it (`Ends`). It has no result if a round traps or if no round
ever ends it.
-/

namespace FiniteReach.Machine

/-! ## Differences and quotients -/

/-- A number less another one, which is no larger. -/
def less? (a b : Nat) : Option Nat := if b ≤ a then some (a - b) else none

/-- The quotient and the remainder of a division. -/
def divide? (a b : Nat) : Option (Nat × Nat) := if b = 0 then none else some (a / b, a % b)

/-! ## Arrays -/

/-- The elements of an array from index `start` to before `stop`. -/
def slice? (xs : Array Nat) (start stop : Nat) : Option (List Nat) :=
  if start ≤ stop ∧ stop ≤ xs.size then some (xs.extract start stop).toList else none

/-- An array with another element at an index. -/
def put? {α : Type} (xs : Array α) (i : Nat) (a : α) : Option (Array α) :=
  if i < xs.size then some (xs.setIfInBounds i a) else none

/-! ## Loops -/

/-- What a round of a loop comes to. -/
inductive Round (σ β : Type) where
  /-- The loop goes on. -/
  | again (state : σ)
  /-- The loop ends. -/
  | done (result : β)

/-- A round with other states and results. -/
def Round.map {σ τ β γ : Type} (f : σ → τ) (g : β → γ) : Round σ β → Round τ γ
  | .again state => .again (f state)
  | .done result => .done (g result)

section Loops

variable {σ τ β γ : Type} {round : σ → Option (Round σ β)} {state next : σ} {result result' : β}

/-- A loop that starts in a state goes round until it ends with a result. -/
inductive Ends (round : σ → Option (Round σ β)) : σ → β → Prop where
  | done {state : σ} {result : β} : round state = some (.done result) → Ends round state result
  | again {state next : σ} {result : β} :
      round state = some (.again next) → Ends round next result → Ends round state result

theorem Ends.unique (h : Ends round state result) (h' : Ends round state result') :
    result = result' := by
  induction h with
  | done hr =>
      cases h' with
      | done hr' =>
          cases hr.symm.trans hr'
          rfl
      | again hr' _ => cases hr.symm.trans hr'
  | again hr _ ih =>
      cases h' with
      | done hr' => cases hr.symm.trans hr'
      | again hr' h' =>
          cases hr.symm.trans hr'
          exact ih h'

open Classical in
/-- The result of a loop that starts in a state. -/
noncomputable def loop (round : σ → Option (Round σ β)) (state : σ) : Option β :=
  if h : ∃ result, Ends round state result then some h.choose else none

theorem loop_eq_some : loop round state = some result ↔ Ends round state result := by
  rw [loop]
  constructor
  · intro h
    split at h
    · next hex =>
        cases h
        exact hex.choose_spec
    · cases h
  · intro h
    have hex : ∃ result, Ends round state result := ⟨result, h⟩
    rw [dif_pos hex, hex.choose_spec.unique h]

theorem loop_done (h : round state = some (.done result)) : loop round state = some result :=
  loop_eq_some.2 (.done h)

theorem loop_again (h : round state = some (.again next)) :
    loop round state = loop round next := by
  refine Option.ext fun result => ?_
  rw [loop_eq_some, loop_eq_some]
  constructor
  · intro hends
    cases hends with
    | done hr => cases h.symm.trans hr
    | again hr hends =>
        cases h.symm.trans hr
        exact hends
  · exact .again h

/-- A loop whose rounds are those of another one, on other states, ends if the other one does. -/
theorem loop_map {round' : τ → Option (Round τ γ)} {f : σ → τ} {g : β → γ}
    (hround : ∀ s, round' (f s) = (round s).map (Round.map f g))
    (h : loop round state = some result) : loop round' (f state) = some (g result) := by
  rw [loop_eq_some] at h ⊢
  induction h with
  | done hr => exact .done (by rw [hround, hr]; rfl)
  | again hr _ ih => exact .again (by rw [hround, hr]; rfl) ih

end Loops

end FiniteReach.Machine
