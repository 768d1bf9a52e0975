import FiniteReach.Proofs.Blame

/-!
# Building on the machine

A builder that cannot be allocated traps at once. After that a step computes the place of its cell
before it is known whether the table has any cells, and traps if the place is no word (`run_eq`). If the
dimensions fit, no place that a step computes lies beyond the table. If they do not, a step within them
may trap, and then nobody comes to know what is wrong with them (`oversized_trap`). What does not trap
is built as if there were no machine (`build?_eq`).
-/

namespace FiniteReach

/-! ## Places that are no words -/

/-- Whether a step is for a cell within the dimensions whose place is no word. -/
def BuildStep.beyond (k n : Nat) : BuildStep → Bool
  | .transition s a _ => s < n && a < k && limit ≤ s * k + a
  | _ => false

theorem BuildStep.beyond_of_fits {k n : Nat} (fits : Fits k n) (step : BuildStep) :
    step.beyond k n = false := by
  cases step with
  | initial _ => rfl
  | final _ => rfl
  | transition s a t =>
      refine Bool.eq_false_iff.2 fun h => ?_
      simp only [beyond, Bool.and_eq_true, decide_eq_true_eq] at h
      obtain ⟨⟨hs, ha⟩, hle⟩ := h
      exact Nat.not_lt.2 hle (Nat.lt_trans (cell_lt hs ha) fits.1)

theorem BuildStep.any_beyond {k n : Nat} {steps : List BuildStep} :
    steps.any (·.beyond k n) = true ↔
      ∃ s a t, .transition s a t ∈ steps ∧ s < n ∧ a < k ∧ limit ≤ s * k + a := by
  rw [List.any_eq_true]
  constructor
  · rintro ⟨step, hm, h⟩
    cases step with
    | initial _ => cases h
    | final _ => cases h
    | transition s a t =>
        simp only [beyond, Bool.and_eq_true, decide_eq_true_eq, and_assoc] at h
        exact ⟨s, a, t, hm, h⟩
  · rintro ⟨s, a, t, hm, h⟩
    refine ⟨_, hm, ?_⟩
    simpa only [beyond, Bool.and_eq_true, decide_eq_true_eq, and_assoc] using h

namespace Builder

variable {b : Builder} {k n s a t : Nat}

/-! ## Tables that cannot be allocated -/

theorem new_eq_none_iff : new k n = none ↔ Fits k n ∧ cellLimit ≤ n * k := by
  rw [new]
  split
  · next h => exact iff_of_false nofun fun ⟨fits, hle⟩ => Nat.not_le.2 (h fits) hle
  · next h =>
      rw [Allocates, Classical.not_imp, Nat.not_lt] at h
      exact iff_of_true rfl h

theorem new_eq_some (h : new k n = some b) : b = blank k n := by
  rw [new] at h
  split at h
  · exact (Option.some.inj h).symm
  · cases h

/-! ## Steps -/

theorem tell_transition (hs : s < b.stateCount) (ha : a < b.alphabetSize) :
    b.tell (.transition s a t) = b.fill (s * b.alphabetSize + a) t := by
  rw [tell, if_neg (Nat.not_le.2 ha), if_neg (Nat.not_le.2 hs)]

/-- Where the dimensions do not fit there are no cells to fill. -/
theorem fill_of_not_fits (h : ¬ Fits b.alphabetSize b.stateCount) (place t : Nat) :
    b.fill place t = b := by
  have hsize : b.cells.size = 0 := b.size_cells.trans (if_neg h)
  have hcells : b.cells.setIfInBounds place (some t) = b.cells :=
    Array.setIfInBounds_eq_of_size_le (hsize ▸ Nat.zero_le place)
  simp only [fill, hcells]

theorem tell_dimensions (b : Builder) (step : BuildStep) :
    (b.tell step).alphabetSize = b.alphabetSize ∧ (b.tell step).stateCount = b.stateCount := by
  cases step with
  | initial _ => exact ⟨rfl, rfl⟩
  | final _ => exact ⟨rfl, rfl⟩
  | transition s a t =>
      rw [tell]
      split
      · exact ⟨rfl, rfl⟩
      · split
        · exact ⟨rfl, rfl⟩
        · exact ⟨rfl, rfl⟩

theorem apply_eq (b : Builder) (step : BuildStep) : b.apply step =
    if step.beyond b.alphabetSize b.stateCount then none else some (b.tell step) := by
  cases step with
  | initial _ => rfl
  | final _ => rfl
  | transition s a t =>
      rw [apply, BuildStep.beyond]
      split
      · next hrange =>
          rw [tell_transition hrange.1 hrange.2, Machine.cell?_eq]
          by_cases h : s * b.alphabetSize + a < limit
          · rw [Machine.word?_of_lt h]
            simp [Nat.not_le.2 h]
          · rw [Machine.word?_of_le (Nat.not_lt.1 h)]
            simp [hrange, Nat.not_lt.1 h]
      · next hrange =>
          rw [if_neg]
          simp only [Bool.and_eq_true, decide_eq_true_eq]
          exact fun h => hrange h.1

theorem run_eq (b : Builder) (steps : List BuildStep) : b.run steps =
    if steps.any (·.beyond b.alphabetSize b.stateCount) then none else some (b.tellAll steps) := by
  induction steps generalizing b with
  | nil => rfl
  | cons step steps ih =>
      rw [run, List.foldlM_cons, apply_eq, List.any_cons]
      cases step.beyond b.alphabetSize b.stateCount with
      | true => rfl
      | false =>
          obtain ⟨hk, hn⟩ := b.tell_dimensions step
          have hrest := ih (b.tell step)
          rw [hk, hn] at hrest
          exact hrest

end Builder

namespace Automaton

variable {k n : Nat} {steps : List BuildStep}

/-! ## Building -/

theorem build?_of_new {b : Builder} (h : Builder.new k n = some b) : build? k n steps =
    if steps.any (·.beyond k n) then none else some (ofSteps k n steps) := by
  cases Builder.new_eq_some h
  rw [build?, h]
  show ((Builder.blank k n).run steps).bind _ = _
  rw [Builder.run_eq]
  change (if steps.any (·.beyond k n) then none else _ : Option Builder).bind _ = _
  split
  · rfl
  · rfl

/-- The dimensions are reported if and only if they do not fit. -/
theorem ofSteps_eq_overflow_iff :
    ofSteps k n steps = .error (.dimensionOverflow n k) ↔ ¬ Fits k n := by
  constructor
  · intro h
    rcases BuildStep.exists_firstFault_or_ofSteps k n steps with ⟨fault, hfault⟩ | ⟨A, hA⟩
    · cases h.symm.trans (BuildStep.ofSteps_of_firstFault hfault)
      cases hfault with
      | dimensions hfits => exact hfits
      | draft _ _ hdraft => cases hdraft
    · cases h.symm.trans hA
  · intro h
    exact BuildStep.ofSteps_of_firstFault (.dimensions h)

/-- Tables that can be allocated are built as if there were no machine. -/
theorem build?_of_lt (hn : n < limit) (hcells : n * k < cellLimit) (steps : List BuildStep) :
    build? k n steps = some (ofSteps k n steps) := by
  have fits : Fits k n := ⟨Nat.lt_trans hcells (by decide), hn⟩
  rw [build?_of_new (if_pos fun _ => hcells), if_neg]
  exact Bool.eq_false_iff.1 (List.any_eq_false.2 fun step _ =>
    Bool.eq_false_iff.1 (step.beyond_of_fits fits))

/-- What traps is the allocation of a table of `cellLimit` cells or more that could be indexed, and a
step for a cell whose place is no word, which no cell has if the dimensions fit. Nothing else does, and
what does not trap is built as if there were no machine. Where such a place is found, there are no
cells, so that it would not matter if it were taken for another one. -/
theorem build?_eq (k n : Nat) (steps : List BuildStep) :
    (Builder.new k n = none ↔ Fits k n ∧ cellLimit ≤ n * k) ∧
    (∀ b, Builder.new k n = some b →
      (b.run steps = none ↔
        ∃ s a t, .transition s a t ∈ steps ∧ s < n ∧ a < k ∧ limit ≤ s * k + a)) ∧
    (Fits k n → ∀ s < n, ∀ a < k, Machine.cell? s k a = some (s * k + a)) ∧
    (¬ Fits k n → ∀ place t, ((Builder.blank k n).tellAll steps).fill place t =
      (Builder.blank k n).tellAll steps) ∧
    (∀ built, build? k n steps = some built → built = ofSteps k n steps) ∧
    (n < limit → n * k < cellLimit → build? k n steps = some (ofSteps k n steps)) ∧
    (ofSteps k n steps = .error (.dimensionOverflow n k) ↔ ¬ Fits k n) := by
  refine ⟨Builder.new_eq_none_iff, fun b hb => ?_, fun fits s hs a ha => ?_, fun fits => ?_,
    fun built h => ?_, fun hn hcells => build?_of_lt hn hcells steps, ofSteps_eq_overflow_iff⟩
  · cases Builder.new_eq_some hb
    rw [Builder.run_eq, ← BuildStep.any_beyond]
    change (if steps.any (·.beyond k n) then none else _) = none ↔ _
    simp
  · rw [Machine.cell?_eq, Machine.word?_of_lt (Nat.lt_trans (cell_lt hs ha) fits.1)]
  · have hran := Builder.ran k n steps
    refine Builder.fill_of_not_fits ?_
    rwa [hran.alphabetSize, hran.stateCount]
  · cases hb : Builder.new k n with
    | none =>
        rw [build?, hb] at h
        cases h
    | some b =>
        rw [build?_of_new hb] at h
        split at h
        · cases h
        · exact (Option.some.inj h).symm

theorem two_build? : Fits 2 2 ∧ 1 < 2 ∧ 2 < limit ∧ 2 * 2 < cellLimit ∧
    Machine.cell? 1 2 1 = some 3 ∧
    build? 2 2 [.transition 1 1 0, .transition 2 7 0] = some (.error (.symbolOutOfRange 7 2)) := by
  obtain ⟨_, _, hplace, _, _, hbuild, _⟩ := build?_eq 2 2 [.transition 1 1 0, .transition 2 7 0]
  refine ⟨by decide, by decide, by decide, by decide, hplace (by decide) 1 (by decide) 1 (by decide),
    ?_⟩
  rw [hbuild (by decide) (by decide)]
  rfl

/-- Dimensions that are words and a transition within them whose place is `limit`. -/
theorem oversized_trap :
    4294967296 < limit ∧ 4294967297 < limit ∧ 4294967296 * 4294967296 + 0 = limit ∧
      (∃ b, Builder.new 4294967296 4294967297 = some b ∧
        b.run [.transition 4294967296 0 0] = none) ∧
      build? 4294967296 4294967297 [.transition 4294967296 0 0] = none ∧
      ofSteps 4294967296 4294967297 [.transition 4294967296 0 0] =
        .error (.dimensionOverflow 4294967297 4294967296) := by
  have hnew : Builder.new 4294967296 4294967297 = some (.blank 4294967296 4294967297) :=
    if_pos fun fits => absurd fits (by decide)
  refine ⟨by decide, by decide, by decide, ⟨_, hnew, ?_⟩, ?_, ?_⟩
  · rw [Builder.run_eq]
    exact if_pos (by decide)
  · rw [build?_of_new hnew]
    exact if_pos (by decide)
  · exact ofSteps_eq_overflow_iff.2 (by decide)

end Automaton

end FiniteReach
