import FiniteReach.Proofs.Construction
import FiniteReach.Proofs.Transitions

/-!
# Steps in another order

Steps build an automaton exactly if their draft is well formed: no transition lies outside the
table, and the initial state, the final states and the last target of every cell are in range. So a
bad initial state or target can be made good by a later step, while nothing makes good a final state
or a transition that is out of range. The order of steps counts only between those that set the
initial state, and between those that fill one cell (`Reordered`).
-/

namespace FiniteReach

variable {k n : Nat} {steps steps' : List BuildStep} {A : Automaton}

/-! ## The draft of steps -/

theorem Draft.wellFormed_ofSteps_iff : (Draft.ofSteps k n steps).WellFormed ↔
    n * k < limit ∧ (∀ s a t, .transition s a t ∈ steps → a < k ∧ s < n) ∧ lastInitial steps < n ∧
      (∀ f, .final f ∈ steps → f < n) ∧
        ∀ s < n, ∀ a < k, ∃ t < n, lastTarget? steps s a = some t := by
  constructor
  · intro h
    refine ⟨h.size_lt, fun s a t hm => ?_, h.initial_lt, fun f hf => ?_, fun s hs a ha => ?_⟩
    · exact ((h.target_isSome s a).1 (Option.isSome_iff_exists.2 (exists_lastTarget? hm))).symm
    · exact h.finals_lt f (Automaton.mem_filterMap_final.2 hf)
    · obtain ⟨t, ht⟩ := Option.isSome_iff_exists.1 ((h.target_isSome s a).2 ⟨hs, ha⟩)
      exact ⟨t, h.target_lt s a t ht, ht⟩
  · rintro ⟨hsize, hrange, hq, hfs, htarget⟩
    have hcell {s a t : Nat} (ht : lastTarget? steps s a = some t) : s < n ∧ a < k :=
      (hrange s a t (mem_of_lastTarget? ht)).symm
    refine ⟨hsize, hq, fun f hf => hfs f (Automaton.mem_filterMap_final.1 hf), ?_, ?_⟩
    · intro s a
      rw [Option.isSome_iff_exists]
      constructor
      · rintro ⟨t, ht⟩
        exact hcell ht
      · rintro ⟨hs, ha⟩
        obtain ⟨t, _, ht⟩ := htarget s hs a ha
        exact ⟨t, ht⟩
    · intro s a t ht
      obtain ⟨hs, ha⟩ := hcell ht
      obtain ⟨t', hlt, ht'⟩ := htarget s hs a ha
      cases ht.symm.trans ht'
      exact hlt

/-- Transitions that give no cell two targets say just these targets. -/
theorem Draft.ofSteps_of_unique {q : Nat} {fs : List Nat} {target : Nat → Nat → Option Nat}
    (hsteps : ∀ step ∈ steps, ∃ s a t, step = .transition s a t)
    (htarget : ∀ s a t, .transition s a t ∈ steps ↔ target s a = some t) :
    Draft.ofSteps k n (.initial q :: fs.map .final ++ steps) = ⟨k, n, q, fs, target⟩ := by
  have hfinals :
      (BuildStep.initial q :: fs.map .final ++ steps).filterMap BuildStep.final? = fs := by
    have hnone : steps.filterMap BuildStep.final? = [] := by
      refine List.filterMap_eq_nil_iff.2 fun step hm => ?_
      obtain ⟨s, a, t, rfl⟩ := hsteps step hm
      rfl
    rw [List.filterMap_append, hnone, List.append_nil, List.filterMap_cons_none rfl,
      List.filterMap_map]
    exact List.filterMap_some
  have hlast : lastTarget? (.initial q :: fs.map .final ++ steps) = target := by
    funext s a
    have hmem (t : Nat) : .transition s a t ∈ .initial q :: fs.map .final ++ steps ↔
        target s a = some t := by
      rw [← htarget]
      simp
    refine Option.ext fun t => ⟨fun h => (hmem t).1 (mem_of_lastTarget? h), fun h => ?_⟩
    refine lastTarget?_of_mem ((hmem t).2 h) fun t' hm' => ?_
    exact Option.some.inj (((hmem t').1 hm').symm.trans h)
  rw [Draft.ofSteps, lastInitial_of_transitions hsteps, hfinals, hlast]

namespace Automaton

theorem ofSteps_eq_ok_iff_holds : ofSteps k n steps = .ok A ↔ A.Holds (.ofSteps k n steps) := by
  constructor
  · exact holds_of_ofSteps
  · intro h
    obtain ⟨_, hrange, _⟩ := Draft.wellFormed_ofSteps_iff.1 h.wellFormed
    have hk : A.alphabetSize = k := h.alphabetSize
    have hn : A.stateCount = n := h.stateCount
    refine ofSteps_eq_ok.2 ⟨hk, hn, h.initial, fun f => ?_, fun s a t hm => ?_, fun s a => ?_⟩
    · exact (h.mem_finals f).trans mem_filterMap_final
    · rw [hk, hn]
      exact (hrange s a t hm).symm
    · exact (h.target s a _).2 (mem_transitions.2 ⟨s.2, a.2, rfl⟩)

theorem exists_ofSteps_iff : (∃ A, ofSteps k n steps = .ok A) ↔
    Fits k n ∧ (Draft.ofSteps k n steps).WellFormed := by
  constructor
  · rintro ⟨A, hA⟩
    obtain ⟨rfl, rfl, _⟩ := ofSteps_eq_ok.1 hA
    exact ⟨⟨A.size_lt, A.stateCount_lt⟩, (holds_of_ofSteps hA).wellFormed⟩
  · rintro ⟨fits, h⟩
    exact ⟨_, ofSteps_eq_ok_iff_holds.2 (Draft.holds_automaton h fits.2)⟩

end Automaton

/-! ## Other orders -/

/-- The same steps, of which those that set the initial state are in the same order, and those that
fill one cell as well. -/
structure Reordered (steps steps' : List BuildStep) : Prop where
  perm : steps.Perm steps'
  initials : steps'.filterMap BuildStep.initial? = steps.filterMap BuildStep.initial?
  targets : ∀ s a,
    steps'.filterMap (BuildStep.target? s a) = steps.filterMap (BuildStep.target? s a)

namespace Reordered

theorem lastInitial_eq (h : Reordered steps steps') : lastInitial steps' = lastInitial steps := by
  rw [lastInitial, lastInitial, ← List.getLast?_filterMap, ← List.getLast?_filterMap, h.initials]

theorem lastTarget?_eq (h : Reordered steps steps') (s a : Nat) :
    lastTarget? steps' s a = lastTarget? steps s a := by
  rw [lastTarget?, lastTarget?, ← List.getLast?_filterMap, ← List.getLast?_filterMap, h.targets]

theorem holds (h : Reordered steps steps') (hA : A.Holds (.ofSteps k n steps)) :
    A.Holds (.ofSteps k n steps') where
  alphabetSize := hA.alphabetSize
  stateCount := hA.stateCount
  initial := hA.initial.trans h.lastInitial_eq.symm
  mem_finals f := (hA.mem_finals f).trans (h.perm.filterMap BuildStep.final?).mem_iff
  target s a t := by
    change lastTarget? steps' s a = some t ↔ _
    rw [h.lastTarget?_eq]
    exact hA.target s a t

end Reordered

namespace Automaton

/-- What steps say last is what they build, in whatever order they come otherwise. -/
theorem ofSteps_builds_last (k n : Nat) (steps : List BuildStep) :
    ((∃ A, ofSteps k n steps = .ok A) ↔ Fits k n ∧
      (∀ s a t, .transition s a t ∈ steps → a < k ∧ s < n) ∧ lastInitial steps < n ∧
        (∀ f, .final f ∈ steps → f < n) ∧
          ∀ s < n, ∀ a < k, ∃ t < n, lastTarget? steps s a = some t) ∧
    (∀ A, ofSteps k n steps = .ok A →
      A.alphabetSize = k ∧ A.stateCount = n ∧ A.initial = lastInitial steps ∧
        (∀ f, f ∈ A.finals ↔ .final f ∈ steps) ∧
          ∀ s < n, ∀ a < k, ∃ t, lastTarget? steps s a = some t ∧ A.step s a = .ok t) ∧
    ∀ steps', Reordered steps steps' →
      ∀ A, ofSteps k n steps = .ok A → ofSteps k n steps' = .ok A := by
  refine ⟨?_, fun A hA => ?_, fun steps' h A hA => ?_⟩
  · rw [exists_ofSteps_iff, Draft.wellFormed_ofSteps_iff]
    exact and_congr_right fun fits => and_iff_right fits.1
  · obtain ⟨rfl, rfl, h⟩ := ofSteps_eq_ok.1 hA
    refine ⟨rfl, rfl, h.initial, h.mem_finals, fun s hs a ha => ?_⟩
    exact ⟨_, h.target ⟨s, hs⟩ ⟨a, ha⟩, step_eq_ok.2 (mem_transitions.2 ⟨hs, ha, rfl⟩)⟩
  · exact ofSteps_eq_ok_iff_holds.2 (h.holds (holds_of_ofSteps hA))

end Automaton

end FiniteReach
