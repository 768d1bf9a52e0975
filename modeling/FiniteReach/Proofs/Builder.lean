import FiniteReach.Automaton.Builder
import Mathlib.Data.List.Induction
import Mathlib.Data.List.Sort

/-!
# What steps build

Steps may come in any order and contradict each other. `Ran` says what a builder remembers of them,
and `ofSteps_eq_ok` which automaton they build, if any: the last initial state, all final states and
the last target of each cell.
-/

namespace FiniteReach

/-! ## Cells -/

theorem cell_div {k s a : Nat} (ha : a < k) : (s * k + a) / k = s := by
  rw [Nat.mul_comm, Nat.mul_add_div (Nat.zero_lt_of_lt ha), Nat.div_eq_of_lt ha, Nat.add_zero]

theorem cell_mod {k s a : Nat} (ha : a < k) : (s * k + a) % k = a := by
  rw [Nat.mul_comm, Nat.mul_add_mod, Nat.mod_eq_of_lt ha]

/-- No two cells of a table stand in the same place. -/
theorem cell_inj {k s a s' a' : Nat} (ha : a < k) (ha' : a' < k) :
    s * k + a = s' * k + a' ↔ s = s' ∧ a = a' := by
  constructor
  · intro h
    have hs := congrArg (· / k) h
    have ht := congrArg (· % k) h
    simp only [cell_div ha, cell_div ha', cell_mod ha, cell_mod ha'] at hs ht
    exact ⟨hs, ht⟩
  · rintro ⟨rfl, rfl⟩
    rfl

/-- Every place in a table is that of a cell. -/
theorem exists_cell {n k : Nat} (c : Fin (n * k)) :
    ∃ (s a : Nat) (hs : s < n) (ha : a < k), c = ⟨s * k + a, cell_lt hs ha⟩ :=
  ⟨c / k, c % k, div_lt_of_cell c.2, mod_lt_of_cell c.2, Fin.ext (Nat.div_add_mod' c.1 k).symm⟩

/-! ## What a step says -/

namespace BuildStep

/-- The initial state that a step sets. -/
def initial? : BuildStep → Option Nat
  | .initial s => some s
  | _ => none

/-- The final state that a step adds. -/
def final? : BuildStep → Option Nat
  | .final s => some s
  | _ => none

/-- The target of the cell of `s` and `a`, if the step sets one. -/
def target? (s a : Nat) : BuildStep → Option Nat
  | .transition s' a' t => if s' = s ∧ a' = a then some t else none
  | _ => none

/-- The symbol of a transition, if it is out of range. -/
def strangeSymbol? (k : Nat) : BuildStep → Option Nat
  | .transition _ a _ => if k ≤ a then some a else none
  | _ => none

/-- The source of a transition on a symbol, if it is out of range. -/
def strangeSource? (k n : Nat) : BuildStep → Option Nat
  | .transition s a _ => if a < k ∧ n ≤ s then some s else none
  | _ => none

end BuildStep

/-- The initial state that steps set last, or zero. -/
def lastInitial (steps : List BuildStep) : Nat :=
  (steps.reverse.findSome? BuildStep.initial?).getD 0

/-- The target that steps set last for the cell of `s` and `a`. -/
def lastTarget? (steps : List BuildStep) (s a : Nat) : Option Nat :=
  steps.reverse.findSome? (BuildStep.target? s a)

@[simp] theorem lastInitial_append (steps : List BuildStep) (step : BuildStep) :
    lastInitial (steps ++ [step]) = step.initial?.getD (lastInitial steps) := by
  rw [lastInitial, List.reverse_concat, List.findSome?_cons]
  cases step <;> rfl

@[simp] theorem lastTarget?_append (steps : List BuildStep) (step : BuildStep) (s a : Nat) :
    lastTarget? (steps ++ [step]) s a = (step.target? s a).or (lastTarget? steps s a) := by
  rw [lastTarget?, List.reverse_concat, List.findSome?_cons]
  cases step.target? s a <;> rfl

theorem BuildStep.target?_eq_some {step : BuildStep} {s a t : Nat} :
    step.target? s a = some t ↔ step = .transition s a t := by
  cases step with
  | transition s' a' t' => simp [BuildStep.target?, and_assoc]
  | initial _ => simp [BuildStep.target?]
  | final _ => simp [BuildStep.target?]

theorem mem_of_lastTarget? {steps : List BuildStep} {s a t : Nat}
    (h : lastTarget? steps s a = some t) : .transition s a t ∈ steps := by
  obtain ⟨step, hm, ht⟩ := List.exists_of_findSome?_eq_some h
  rw [BuildStep.target?_eq_some.1 ht] at hm
  exact List.mem_reverse.1 hm

theorem exists_lastTarget? {steps : List BuildStep} {s a t : Nat}
    (hm : .transition s a t ∈ steps) : ∃ t', lastTarget? steps s a = some t' := by
  cases h : lastTarget? steps s a with
  | none =>
      have hn := List.findSome?_eq_none_iff.1 h _ (List.mem_reverse.2 hm)
      rw [BuildStep.target?_eq_some.2 rfl] at hn
      cases hn
  | some t' => exact ⟨t', rfl⟩

/-- What some step says is what steps say last, if none says anything else. -/
theorem findSome?_reverse_eq_some {said? : BuildStep → Option Nat} {steps : List BuildStep}
    {step : BuildStep} {m : Nat} (hm : step ∈ steps) (hsaid : said? step = some m)
    (hunique : ∀ other ∈ steps, ∀ m', said? other = some m' → m' = m) :
    steps.reverse.findSome? said? = some m := by
  cases h : steps.reverse.findSome? said? with
  | none =>
      have hn := List.findSome?_eq_none_iff.1 h _ (List.mem_reverse.2 hm)
      cases hsaid.symm.trans hn
  | some m' =>
      obtain ⟨other, ho, hm'⟩ := List.exists_of_findSome?_eq_some h
      rw [hunique other (List.mem_reverse.1 ho) m' hm']

/-- A cell for which there is only one target has that target last. -/
theorem lastTarget?_of_mem {steps : List BuildStep} {s a t : Nat}
    (hm : .transition s a t ∈ steps) (hunique : ∀ t', .transition s a t' ∈ steps → t' = t) :
    lastTarget? steps s a = some t := by
  refine findSome?_reverse_eq_some hm (BuildStep.target?_eq_some.2 rfl) fun step ho t' ht => ?_
  exact hunique t' (BuildStep.target?_eq_some.1 ht ▸ ho)

theorem BuildStep.initial?_eq_some {step : BuildStep} {s : Nat} :
    step.initial? = some s ↔ step = .initial s := by
  cases step with
  | initial s' => simp [BuildStep.initial?]
  | final _ => simp [BuildStep.initial?]
  | transition _ _ _ => simp [BuildStep.initial?]

/-- Steps that set only one initial state have set it last. -/
theorem lastInitial_of_mem {steps : List BuildStep} {q : Nat} (hm : .initial q ∈ steps)
    (hunique : ∀ s, .initial s ∈ steps → s = q) : lastInitial steps = q := by
  have hlast : steps.reverse.findSome? BuildStep.initial? = some q :=
    findSome?_reverse_eq_some hm rfl fun step ho s hs =>
      hunique s (BuildStep.initial?_eq_some.1 hs ▸ ho)
  rw [lastInitial, hlast, Option.getD_some]

theorem lastInitial_of_transitions {q : Nat} {fs : List Nat} {steps : List BuildStep}
    (h : ∀ step ∈ steps, ∃ s a t, step = .transition s a t) :
    lastInitial (.initial q :: fs.map .final ++ steps) = q := by
  refine lastInitial_of_mem List.mem_cons_self fun s hm => ?_
  have hnot : .initial s ∉ steps := by
    intro hm
    obtain ⟨_, _, _, ht⟩ := h _ hm
    cases ht
  simpa [hnot] using hm

/-! ## What a builder remembers -/

namespace Builder

/-- What `b` remembers of steps that were taken with `k` symbols and `n` states. -/
structure Ran (k n : Nat) (steps : List BuildStep) (b : Builder) : Prop where
  alphabetSize : b.alphabetSize = k
  stateCount : b.stateCount = n
  initial : b.initial = lastInitial steps
  finals : b.finals.toList = steps.filterMap BuildStep.final?
  strangeSymbol : b.strangeSymbol = steps.findSome? (BuildStep.strangeSymbol? k)
  strangeSource : b.strangeSource = steps.findSome? (BuildStep.strangeSource? k n)
  cell : Fits k n → ∀ s < n, ∀ a < k, b.cells[s * k + a]? = some (lastTarget? steps s a)

theorem Ran.blank (k n : Nat) : Ran k n [] (Builder.blank k n) where
  alphabetSize := rfl
  stateCount := rfl
  initial := rfl
  finals := rfl
  strangeSymbol := rfl
  strangeSource := rfl
  cell fits s hs a ha := by
    simp [Builder.blank, fits, cell_lt hs ha, lastTarget?]

/-- A transition out of range is for no cell. -/
theorem lastTarget?_strange {k n s' a' : Nat} (h : k ≤ a' ∨ n ≤ s') {s a : Nat} (hs : s < n)
    (ha : a < k) (steps : List BuildStep) (t : Nat) :
    lastTarget? (steps ++ [.transition s' a' t]) s a = lastTarget? steps s a := by
  have hne : ¬ (s' = s ∧ a' = a) := fun he => by omega
  rw [lastTarget?_append, BuildStep.target?, if_neg hne, Option.none_or]

/-- Only the cell that a transition is for gets another target. -/
theorem Ran.cell_set {k n : Nat} {steps : List BuildStep} {b : Builder} (h : Ran k n steps b)
    (fits : Fits k n) {s' a' s a : Nat} (ha' : a' < k) (hs : s < n) (ha : a < k) (t : Nat) :
    (b.cells.setIfInBounds (s' * k + a') (some t))[s * k + a]? =
      some (lastTarget? (steps ++ [.transition s' a' t]) s a) := by
  rw [lastTarget?_append, BuildStep.target?, Array.getElem?_setIfInBounds]
  simp only [cell_inj ha' ha]
  split
  · next he =>
      obtain ⟨rfl, rfl⟩ := he
      have hsize : s' * k + a' < b.cells.size := by
        rw [b.size_cells, h.alphabetSize, h.stateCount, if_pos fits]
        exact cell_lt hs ha
      rw [if_pos hsize, Option.some_or]
  · exact h.cell fits s hs a ha

theorem Ran.transition {k n : Nat} {steps : List BuildStep} {b : Builder} (h : Ran k n steps b)
    (s' a' t : Nat) :
    Ran k n (steps ++ [.transition s' a' t]) (b.tell (.transition s' a' t)) := by
  have hk := h.alphabetSize
  have hn := h.stateCount
  have hsymbol := h.strangeSymbol
  have hsource := h.strangeSource
  have hinitial : b.initial = lastInitial (steps ++ [.transition s' a' t]) := by
    simp [BuildStep.initial?, h.initial]
  have hfinals : b.finals.toList =
      (steps ++ [BuildStep.transition s' a' t]).filterMap BuildStep.final? := by
    simp [BuildStep.final?, h.finals]
  subst hk hn
  rw [Builder.tell]
  split
  · next ha' =>
      refine ⟨rfl, rfl, hinitial, hfinals, ?_, ?_, fun fits s hs a ha => ?_⟩
      · simp [BuildStep.strangeSymbol?, ha', hsymbol]
      · simp [BuildStep.strangeSource?, Nat.not_lt.2 ha', hsource]
      · rw [lastTarget?_strange (Or.inl ha') hs ha, h.cell fits s hs a ha]
  · next ha' =>
      have hlt := Nat.lt_of_not_le ha'
      split
      · next hs' =>
          refine ⟨rfl, rfl, hinitial, hfinals, ?_, ?_, fun fits s hs a ha => ?_⟩
          · simp [BuildStep.strangeSymbol?, ha', hsymbol]
          · simp [BuildStep.strangeSource?, hlt, hs', hsource]
          · rw [lastTarget?_strange (Or.inr hs') hs ha, h.cell fits s hs a ha]
      · next hs' =>
          refine ⟨rfl, rfl, hinitial, hfinals, ?_, ?_, fun fits s hs a ha => ?_⟩
          · simp [Builder.fill, BuildStep.strangeSymbol?, ha', hsymbol]
          · simp [Builder.fill, BuildStep.strangeSource?, hs', hsource]
          · exact h.cell_set fits hlt hs ha t

theorem Ran.tell {k n : Nat} {steps : List BuildStep} {b : Builder} (h : Ran k n steps b)
    (step : BuildStep) : Ran k n (steps ++ [step]) (b.tell step) := by
  cases step with
  | initial q =>
      refine ⟨h.alphabetSize, h.stateCount, ?_, ?_, ?_, ?_, fun fits s hs a ha => ?_⟩
      · simp [Builder.tell, BuildStep.initial?]
      · simp [Builder.tell, BuildStep.final?, h.finals]
      · simp [Builder.tell, BuildStep.strangeSymbol?, h.strangeSymbol]
      · simp [Builder.tell, BuildStep.strangeSource?, h.strangeSource]
      · simp [Builder.tell, BuildStep.target?, h.cell fits s hs a ha]
  | final f =>
      refine ⟨h.alphabetSize, h.stateCount, ?_, ?_, ?_, ?_, fun fits s hs a ha => ?_⟩
      · simp [Builder.tell, BuildStep.initial?, h.initial]
      · simp [Builder.tell, BuildStep.final?, h.finals]
      · simp [Builder.tell, BuildStep.strangeSymbol?, h.strangeSymbol]
      · simp [Builder.tell, BuildStep.strangeSource?, h.strangeSource]
      · simp [Builder.tell, BuildStep.target?, h.cell fits s hs a ha]
  | transition s a t => exact h.transition s a t

theorem ran (k n : Nat) (steps : List BuildStep) : Ran k n steps ((Builder.blank k n).tellAll steps) := by
  induction steps using List.reverseRecOn with
  | nil => exact Ran.blank k n
  | append_singleton steps step ih =>
      rw [tellAll, List.foldl_append]
      exact ih.tell step

/-! ## What is built -/

theorem targets_map {k n i : Nat} (ts : List (Fin n)) :
    targets k n i (ts.map fun t => some t.1) = .ok ts := by
  induction ts generalizing i with
  | nil => rfl
  | cons t ts ih =>
      rw [List.map_cons, targets, dif_pos t.2, ih]
      rfl

theorem eq_map_of_targets {k n i : Nat} {cells : List (Option Nat)} {ts : List (Fin n)}
    (h : targets k n i cells = .ok ts) : cells = ts.map fun t => some t.1 := by
  induction cells generalizing i ts with
  | nil => cases h; rfl
  | cons cell rest ih =>
      cases cell with
      | none => cases h
      | some t =>
          rw [targets] at h
          split at h
          · cases hr : targets k n (i + 1) rest with
            | error e => simp [hr, Except.map] at h
            | ok us =>
                simp only [hr, Except.map, Except.ok.injEq] at h
                rw [← h, ih hr]
                rfl
          · cases h

/-- `b` remembers nothing strange, and what it remembers is what `A` holds. -/
structure Built (b : Builder) (A : Automaton) : Prop where
  strangeSymbol : b.strangeSymbol = none
  strangeSource : b.strangeSource = none
  alphabetSize : A.alphabetSize = b.alphabetSize
  stateCount : A.stateCount = b.stateCount
  initial : A.initial = b.initial
  finals : A.finals = ascending b.finals.toList
  cells : b.cells.toList = A.table.toList.map some

theorem built_of_build {b : Builder} {A : Automaton} (h : b.build = .ok A) : b.Built A := by
  rw [build] at h
  split at h
  · split at h
    · cases h
    · cases h
    · next hsymbol hsource =>
        split at h
        · split at h
          · cases h
          · split at h
            · cases h
            · next hts =>
                cases h
                refine ⟨hsymbol, hsource, rfl, rfl, rfl, rfl, ?_⟩
                exact (eq_map_of_targets hts).trans (by simp)
        · cases h
  · cases h

theorem Built.exists_targets {b : Builder} {A : Automaton} (h : b.Built A) :
    ∃ ts : List (Fin b.stateCount), ts.map Fin.val = A.table.toList ∧
      targets b.alphabetSize b.stateCount 0 b.cells.toList = .ok ts := by
  have hlt : ∀ t ∈ A.table.toList, t < b.stateCount := fun t ht =>
    h.stateCount ▸ A.target_lt t (Array.mem_toList_iff.1 ht)
  have hval : (A.table.toList.pmap Fin.mk hlt).map Fin.val = A.table.toList := by
    simp [List.map_pmap]
  refine ⟨_, hval, ?_⟩
  rw [h.cells]
  conv => lhs; rw [← hval, List.map_map]
  exact targets_map _

theorem Built.build {b : Builder} {A : Automaton} (h : b.Built A) : b.build = .ok A := by
  have hfits : Fits b.alphabetSize b.stateCount := by
    rw [← h.alphabetSize, ← h.stateCount]
    exact ⟨A.size_lt, A.stateCount_lt⟩
  obtain ⟨ts, hval, hts⟩ := h.exists_targets
  rw [Builder.build, dif_pos hfits]
  split
  · next hsymbol => cases h.strangeSymbol.symm.trans hsymbol
  · next hsource => cases h.strangeSource.symm.trans hsource
  · split
    · split
      · next f hf =>
          have hle := List.find?_some hf
          have hlt := A.finals_lt f (h.finals ▸ mem_ascending.2 (List.mem_of_find?_eq_some hf))
          rw [h.stateCount] at hlt
          exact absurd hlt (Nat.not_lt.2 (of_decide_eq_true hle))
      · split
        · next fault hfault => cases hts.symm.trans hfault
        · next us hus =>
            cases hts.symm.trans hus
            rw [Except.ok.injEq]
            exact Automaton.ext h.alphabetSize.symm h.stateCount.symm h.initial.symm h.finals.symm
              ((congrArg List.toArray hval).trans Array.toArray_toList)
    · next hinitial => exact absurd (h.initial ▸ h.stateCount ▸ A.initial_lt) hinitial

theorem build_eq_ok {b : Builder} {A : Automaton} : b.build = .ok A ↔ b.Built A :=
  ⟨built_of_build, Built.build⟩

end Builder

/-! ## From steps to automata -/

namespace Automaton

variable {A : Automaton} {steps : List BuildStep}

theorem getElem?_table (s : Fin A.stateCount) (a : Fin A.alphabetSize) :
    A.table[s.1 * A.alphabetSize + a.1]? = some (A.next s a).1 := by
  have h : s.1 * A.alphabetSize + a.1 < A.table.size := A.size_table ▸ cell_lt s.2 a.2
  rw [Array.getElem?_eq_getElem h]
  rfl

/-- The steps stay within the dimensions of `A`, and what they say last is what `A` holds. -/
structure BuiltBy (A : Automaton) (steps : List BuildStep) : Prop where
  initial : A.initial = lastInitial steps
  mem_finals : ∀ f, f ∈ A.finals ↔ .final f ∈ steps
  inRange : ∀ s a t, .transition s a t ∈ steps → s < A.stateCount ∧ a < A.alphabetSize
  target : ∀ s a, lastTarget? steps s.1 a.1 = some (A.next s a).1

theorem mem_filterMap_final {f : Nat} : f ∈ steps.filterMap BuildStep.final? ↔ .final f ∈ steps := by
  rw [List.mem_filterMap]
  constructor
  · intro ⟨step, hm, hf⟩
    cases step with
    | final g => cases hf; exact hm
    | initial _ => cases hf
    | transition _ _ _ => cases hf
  · intro hm
    exact ⟨_, hm, rfl⟩

/-- Nothing strange is remembered of steps that stay within the dimensions. -/
theorem strange_eq_none_iff {k n : Nat} :
    (steps.findSome? (BuildStep.strangeSymbol? k) = none ∧
      steps.findSome? (BuildStep.strangeSource? k n) = none) ↔
        ∀ s a t, .transition s a t ∈ steps → s < n ∧ a < k := by
  rw [List.findSome?_eq_none_iff, List.findSome?_eq_none_iff]
  constructor
  · intro ⟨hsymbol, hsource⟩ s a t hm
    have ha : a < k := by simpa [BuildStep.strangeSymbol?] using hsymbol _ hm
    exact ⟨by simpa [BuildStep.strangeSource?, ha] using hsource _ hm, ha⟩
  · intro h
    constructor
    · intro step hm
      cases step with
      | transition s a t => simpa [BuildStep.strangeSymbol?] using (h s a t hm).2
      | initial _ => rfl
      | final _ => rfl
    · intro step hm
      cases step with
      | transition s a t => simp [BuildStep.strangeSource?, (h s a t hm).1]
      | initial _ => rfl
      | final _ => rfl

/-- Two tables of the same dimensions are equal if each cell holds the same in both. -/
theorem cells_eq_iff {cells : Array (Option Nat)}
    (hsize : cells.size = A.stateCount * A.alphabetSize) :
    cells.toList = A.table.toList.map some ↔
      ∀ (s : Fin A.stateCount) (a : Fin A.alphabetSize),
        cells[s.1 * A.alphabetSize + a.1]? = some (some (A.next s a).1) := by
  constructor
  · intro h s a
    rw [← Array.getElem?_toList, h, List.getElem?_map, Array.getElem?_toList, getElem?_table]
    rfl
  · intro h
    refine List.ext_getElem? fun i => ?_
    rw [List.getElem?_map, Array.getElem?_toList, Array.getElem?_toList]
    by_cases hi : i < A.stateCount * A.alphabetSize
    · have hc := h ⟨i / A.alphabetSize, div_lt_of_cell hi⟩ ⟨i % A.alphabetSize, mod_lt_of_cell hi⟩
      have ht := A.getElem?_table ⟨i / A.alphabetSize, div_lt_of_cell hi⟩
        ⟨i % A.alphabetSize, mod_lt_of_cell hi⟩
      rw [Nat.div_add_mod'] at hc ht
      rw [hc, ht]
      rfl
    · rw [Array.getElem?_eq_none (by omega), Array.getElem?_eq_none (by rw [A.size_table]; omega)]
      rfl

theorem finals_eq_ascending_iff {numbers : List Nat} :
    A.finals = ascending numbers ↔ ∀ f, f ∈ A.finals ↔ f ∈ numbers := by
  constructor
  · intro h f
    rw [h, mem_ascending]
  · intro h
    exact A.finals_ascending.eq_of_mem_iff (ascending_pairwise numbers) fun {f} =>
      (h f).trans mem_ascending.symm

theorem ofSteps_eq_ok {k n : Nat} :
    ofSteps k n steps = .ok A ↔ A.alphabetSize = k ∧ A.stateCount = n ∧ A.BuiltBy steps := by
  have hran := Builder.ran k n steps
  have hfits : Fits A.alphabetSize A.stateCount := ⟨A.size_lt, A.stateCount_lt⟩
  have hsize := Builder.size_cells ((Builder.blank k n).tellAll steps)
  rw [hran.alphabetSize, hran.stateCount] at hsize
  rw [ofSteps, Builder.build_eq_ok]
  constructor
  · intro h
    obtain rfl := h.alphabetSize.trans hran.alphabetSize
    obtain rfl := h.stateCount.trans hran.stateCount
    refine ⟨rfl, rfl, h.initial.trans hran.initial, fun f => ?_, ?_, fun s a => ?_⟩
    · rw [finals_eq_ascending_iff.1 h.finals f, hran.finals, mem_filterMap_final]
    · exact strange_eq_none_iff.1
        ⟨hran.strangeSymbol ▸ h.strangeSymbol, hran.strangeSource ▸ h.strangeSource⟩
    · rw [if_pos hfits] at hsize
      have hc := (cells_eq_iff hsize).1 h.cells s a
      rw [hran.cell hfits s.1 s.2 a.1 a.2] at hc
      exact Option.some.inj hc
  · rintro ⟨rfl, rfl, h⟩
    obtain ⟨hsymbol, hsource⟩ := strange_eq_none_iff.2 h.inRange
    refine ⟨hran.strangeSymbol.trans hsymbol, hran.strangeSource.trans hsource,
      hran.alphabetSize.symm, hran.stateCount.symm, h.initial.trans hran.initial.symm, ?_, ?_⟩
    · rw [finals_eq_ascending_iff, hran.finals]
      exact fun f => (h.mem_finals f).trans mem_filterMap_final.symm
    · rw [if_pos hfits] at hsize
      rw [cells_eq_iff hsize]
      intro s a
      rw [hran.cell hfits s.1 s.2 a.1 a.2, h.target s a]

/-! ## Steps that name each cell once -/

theorem mem_transitions {s a t : Nat} : (s, a, t) ∈ A.transitions ↔
    ∃ (hs : s < A.stateCount) (ha : a < A.alphabetSize), (A.next ⟨s, hs⟩ ⟨a, ha⟩).1 = t := by
  rw [transitions, List.mem_map]
  constructor
  · rintro ⟨cell, _, h⟩
    cases h
    exact ⟨div_lt_of_cell cell.2, mod_lt_of_cell cell.2, rfl⟩
  · rintro ⟨hs, ha, rfl⟩
    exact ⟨⟨s * A.alphabetSize + a, cell_lt hs ha⟩, List.mem_finRange _,
      by simp only [cell_div ha, cell_mod ha]⟩

/-- The order of transitions does not matter if they are those of an automaton, because these give
no cell two targets. -/
theorem BuiltBy.of_transitions (hq : A.initial = lastInitial steps)
    (hfs : ∀ f, f ∈ A.finals ↔ .final f ∈ steps)
    (hts : ∀ s a t, .transition s a t ∈ steps ↔ (s, a, t) ∈ A.transitions) :
    A.BuiltBy steps where
  initial := hq
  mem_finals := hfs
  inRange s a t hm := by
    obtain ⟨hs, ha, _⟩ := mem_transitions.1 ((hts s a t).1 hm)
    exact ⟨hs, ha⟩
  target s a := by
    refine lastTarget?_of_mem ((hts _ _ _).2 (mem_transitions.2 ⟨s.2, a.2, rfl⟩)) fun t' hm => ?_
    obtain ⟨_, _, ht⟩ := mem_transitions.1 ((hts _ _ _).1 hm)
    exact ht.symm

/-- Transitions that give no cell two targets build `A` exactly if they are those of `A`. -/
theorem ofSteps_eq_ok_of_unique {k n q : Nat} {fs : List Nat}
    (hsteps : ∀ step ∈ steps, ∃ s a t, step = .transition s a t)
    (hunique : ∀ s a t t', .transition s a t ∈ steps → .transition s a t' ∈ steps → t = t') :
    ofSteps k n (.initial q :: fs.map .final ++ steps) = .ok A ↔
      A.alphabetSize = k ∧ A.stateCount = n ∧ A.initial = q ∧ (∀ f, f ∈ A.finals ↔ f ∈ fs) ∧
        ∀ s a t, .transition s a t ∈ steps ↔ (s, a, t) ∈ A.transitions := by
  have hinitial : lastInitial (.initial q :: fs.map .final ++ steps) = q :=
    lastInitial_of_transitions hsteps
  have hfinal (f : Nat) : .final f ∈ .initial q :: fs.map .final ++ steps ↔ f ∈ fs := by
    have hnot : .final f ∉ steps := by
      intro hm
      obtain ⟨_, _, _, ht⟩ := hsteps _ hm
      cases ht
    simp [hnot]
  have htransition (s a t : Nat) : .transition s a t ∈ .initial q :: fs.map .final ++ steps ↔
      .transition s a t ∈ steps := by
    simp
  rw [ofSteps_eq_ok]
  constructor
  · rintro ⟨hk, hn, h⟩
    refine ⟨hk, hn, h.initial.trans hinitial, fun f => (h.mem_finals f).trans (hfinal f), ?_⟩
    have hnext (s : Fin A.stateCount) (a : Fin A.alphabetSize) :
        .transition s.1 a.1 (A.next s a).1 ∈ steps :=
      (htransition _ _ _).1 (mem_of_lastTarget? (h.target s a))
    intro s a t
    rw [mem_transitions]
    constructor
    · intro hm
      obtain ⟨hs, ha⟩ := h.inRange s a t ((htransition _ _ _).2 hm)
      exact ⟨hs, ha, hunique _ _ _ _ (hnext ⟨s, hs⟩ ⟨a, ha⟩) hm⟩
    · rintro ⟨hs, ha, rfl⟩
      exact hnext ⟨s, hs⟩ ⟨a, ha⟩
  · rintro ⟨hk, hn, hq, hfs, hts⟩
    refine ⟨hk, hn, .of_transitions (hq.trans hinitial.symm)
      (fun f => (hfs f).trans (hfinal f).symm) fun s a t => ?_⟩
    rw [htransition, hts]

end Automaton

end FiniteReach
