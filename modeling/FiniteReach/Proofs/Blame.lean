import FiniteReach.Proofs.First
import FiniteReach.Proofs.Reordering

/-!
# What steps are blamed for

Of all that may be wrong with steps at once, one thing is reported: a symbol before a source, both
as the first transition has it that goes wrong in this way, and then what is wrong with the draft of
the steps: its initial state, its first final state out of range, or its first cell without a target
in range (`Draft.FirstFault`). Sources, symbols and final states are looked at in the order of the
steps, cells in that of the table. Steps of which nothing of that can be said build an automaton, so
what is reported is determined by it (`ofSteps_eq_error_iff`).
-/

namespace FiniteReach

/-! ## What is wrong with a draft -/

namespace Draft

/-- The cell of `s` and `a` is the first one of the table that has no target in range. -/
structure FirstOpen (d : Draft) (s a : Nat) : Prop where
  source_lt : s < d.stateCount
  symbol_lt : a < d.alphabetSize
  out : ∀ t, d.target s a = some t → d.stateCount ≤ t
  before : ∀ s' < d.stateCount, ∀ a' < d.alphabetSize,
    s' * d.alphabetSize + a' < s * d.alphabetSize + a → ∃ t < d.stateCount, d.target s' a' = some t

/-- What is reported of a draft. -/
inductive FirstFault (d : Draft) : FormatFault → Prop where
  | initial : d.stateCount ≤ d.initial →
      FirstFault d (.stateOutOfRange .initial d.initial d.stateCount)
  | final {i f : Nat} : d.initial < d.stateCount → FirstAt (d.stateCount ≤ ·) d.finals i f →
      FirstFault d (.stateOutOfRange .final f d.stateCount)
  | missing {s a : Nat} : d.initial < d.stateCount → (∀ f ∈ d.finals, f < d.stateCount) →
      d.FirstOpen s a → d.target s a = none → FirstFault d (.missingTransition s a)
  | target {s a t : Nat} : d.initial < d.stateCount → (∀ f ∈ d.finals, f < d.stateCount) →
      d.FirstOpen s a → d.target s a = some t →
      FirstFault d (.stateOutOfRange .target t d.stateCount)

theorem exists_firstOpen_or (d : Draft) : (∃ s a, d.FirstOpen s a) ∨
    ∀ s < d.stateCount, ∀ a < d.alphabetSize, ∃ t < d.stateCount, d.target s a = some t := by
  let n := d.stateCount
  let k := d.alphabetSize
  -- The cells are searched by their places in the table.
  let Out (c : Fin (n * k)) : Prop := ∀ t, d.target (c / k) (c % k) = some t → n ≤ t
  have hin {s a : Nat} (hs : s < n) (ha : a < k) (h : ¬ Out ⟨s * k + a, cell_lt hs ha⟩) :
      ∃ t < n, d.target s a = some t := by
    simp only [Out, cell_div ha, cell_mod ha, not_forall, Nat.not_le] at h
    obtain ⟨t, ht, hlt⟩ := h
    exact ⟨t, hlt, ht⟩
  rcases exists_first_or Out with ⟨c, hc, hbefore⟩ | h
  · obtain ⟨s, a, hs, ha, rfl⟩ := exists_cell c
    simp only [Out, cell_div ha, cell_mod ha] at hc
    exact .inl ⟨s, a, hs, ha, hc, fun s' hs' a' ha' hlt => hin hs' ha' (hbefore _ hlt)⟩
  · exact .inr fun s hs a ha => hin hs ha (h _)

theorem exists_firstFault_or (d : Draft) : (∃ fault, d.FirstFault fault) ∨
    d.initial < d.stateCount ∧ (∀ f ∈ d.finals, f < d.stateCount) ∧
      ∀ s < d.stateCount, ∀ a < d.alphabetSize, ∃ t < d.stateCount, d.target s a = some t := by
  rcases Nat.lt_or_ge d.initial d.stateCount with hq | hq
  · rcases FirstAt.exists_or_forall_not (d.stateCount ≤ ·) d.finals with ⟨i, f, hf⟩ | hfs
    · exact .inl ⟨_, .final hq hf⟩
    · have hfs : ∀ f ∈ d.finals, f < d.stateCount := fun f hf => Nat.lt_of_not_le (hfs f hf)
      rcases d.exists_firstOpen_or with ⟨s, a, h⟩ | h
      · cases ht : d.target s a with
        | none => exact .inl ⟨_, .missing hq hfs h ht⟩
        | some t => exact .inl ⟨_, .target hq hfs h ht⟩
      · exact .inr ⟨hq, hfs, h⟩
  · exact .inl ⟨_, .initial hq⟩

/-- Nothing is missing from a draft that gives every cell a target. -/
theorem FirstFault.exists_state {d : Draft} {fault : FormatFault} (h : d.FirstFault fault)
    (htarget : ∀ s < d.stateCount, ∀ a < d.alphabetSize, ∃ t, d.target s a = some t) :
    ∃ role s, fault = .stateOutOfRange role s d.stateCount := by
  cases h with
  | initial _ => exact ⟨_, _, rfl⟩
  | final _ _ => exact ⟨_, _, rfl⟩
  | missing _ _ hopen hnone =>
      obtain ⟨t, ht⟩ := htarget _ hopen.source_lt _ hopen.symbol_lt
      cases hnone.symm.trans ht
  | target _ _ _ _ => exact ⟨_, _, rfl⟩

end Draft

/-! ## What is wrong with steps -/

namespace BuildStep

/-- A transition whose source and symbol stand in a relation. -/
def TransitionWith (R : Nat → Nat → Prop) : BuildStep → Prop
  | .transition s a _ => R s a
  | _ => False

/-- What is reported of steps. -/
inductive FirstFault (k n : Nat) (steps : List BuildStep) : FormatFault → Prop where
  | dimensions : ¬ Fits k n → FirstFault k n steps (.dimensionOverflow n k)
  | symbol {i s a t : Nat} : Fits k n →
      FirstAt (TransitionWith fun _ a => k ≤ a) steps i (.transition s a t) →
      FirstFault k n steps (.symbolOutOfRange a k)
  | source {i s a t : Nat} : Fits k n → (∀ s a t, .transition s a t ∈ steps → a < k) →
      FirstAt (TransitionWith fun s _ => n ≤ s) steps i (.transition s a t) →
      FirstFault k n steps (.stateOutOfRange .source s n)
  | draft {fault : FormatFault} : Fits k n →
      (∀ s a t, .transition s a t ∈ steps → s < n ∧ a < k) →
      (Draft.ofSteps k n steps).FirstFault fault → FirstFault k n steps fault

variable {k n : Nat} {R : Nat → Nat → Prop} {steps : List BuildStep}

theorem TransitionWith.exists_eq {step : BuildStep} (h : step.TransitionWith R) :
    ∃ s a t, step = .transition s a t ∧ R s a := by
  cases step with
  | transition s a t => exact ⟨s, a, t, rfl, h⟩
  | initial _ => exact h.elim
  | final _ => exact h.elim

theorem exists_firstTransition_or (R : Nat → Nat → Prop) (steps : List BuildStep) :
    (∃ i s a t, FirstAt (TransitionWith R) steps i (.transition s a t)) ∨
      ∀ s a t, .transition s a t ∈ steps → ¬ R s a := by
  rcases FirstAt.exists_or_forall_not (TransitionWith R) steps with ⟨i, step, h⟩ | h
  · obtain ⟨s, a, t, rfl, _⟩ := h.holds.exists_eq
    exact .inl ⟨i, s, a, t, h⟩
  · exact .inr fun s a t => h _

theorem strangeSymbol?_eq_none {step : BuildStep} (h : ¬ step.TransitionWith fun _ a => k ≤ a) :
    step.strangeSymbol? k = none := by
  cases step with
  | transition s a t => exact if_neg h
  | initial _ => rfl
  | final _ => rfl

theorem strangeSource?_eq_none {step : BuildStep} (h : ¬ step.TransitionWith fun s _ => n ≤ s) :
    step.strangeSource? k n = none := by
  cases step with
  | transition s a t => exact if_neg fun hlt => h hlt.2
  | initial _ => rfl
  | final _ => rfl

/-- Steps within the table build an automaton unless something is wrong with their draft. -/
theorem exists_draftFault_or_ofSteps (fits : Fits k n)
    (hrange : ∀ s a t, .transition s a t ∈ steps → s < n ∧ a < k) :
    (∃ fault, (Draft.ofSteps k n steps).FirstFault fault) ∨
      ∃ A, Automaton.ofSteps k n steps = .ok A := by
  refine (Draft.ofSteps k n steps).exists_firstFault_or.imp_right fun ⟨hq, hfs, htarget⟩ => ?_
  refine Automaton.exists_ofSteps_iff.2 ⟨fits, Draft.wellFormed_ofSteps_iff.2 ?_⟩
  exact ⟨fits.1, fun s a t hm => (hrange s a t hm).symm, hq,
    fun f hf => hfs f (Automaton.mem_filterMap_final.2 hf), htarget⟩

theorem exists_firstFault_or_ofSteps (k n : Nat) (steps : List BuildStep) :
    (∃ fault, FirstFault k n steps fault) ∨ ∃ A, Automaton.ofSteps k n steps = .ok A := by
  by_cases fits : Fits k n
  · rcases exists_firstTransition_or (fun _ a => k ≤ a) steps with ⟨i, s, a, t, h⟩ | hsymbol
    · exact .inl ⟨_, .symbol fits h⟩
    · simp only [Nat.not_le] at hsymbol
      rcases exists_firstTransition_or (fun s _ => n ≤ s) steps with ⟨i, s, a, t, h⟩ | hsource
      · exact .inl ⟨_, .source fits hsymbol h⟩
      · simp only [Nat.not_le] at hsource
        have hrange (s a t : Nat) (hm : .transition s a t ∈ steps) : s < n ∧ a < k :=
          ⟨hsource s a t hm, hsymbol s a t hm⟩
        refine (exists_draftFault_or_ofSteps fits hrange).imp_left fun ⟨fault, h⟩ => ?_
        exact ⟨fault, .draft fits hrange h⟩
  · exact .inl ⟨_, .dimensions fits⟩

end BuildStep

/-! ## What a builder reports -/

namespace Builder

variable {b : Builder} {k n : Nat} {steps : List BuildStep} {fault : FormatFault}

theorem build_of_strangeSymbol {a : Nat} (fits : Fits b.alphabetSize b.stateCount)
    (h : b.strangeSymbol = some a) : b.build = .error (.symbolOutOfRange a b.alphabetSize) := by
  rw [build, dif_pos fits]
  split
  · next hsymbol =>
      cases h.symm.trans hsymbol
      rfl
  · next hsymbol _ => cases h.symm.trans hsymbol
  · next hsymbol _ => cases h.symm.trans hsymbol

theorem build_of_strangeSource {s : Nat} (fits : Fits b.alphabetSize b.stateCount)
    (hnone : b.strangeSymbol = none) (h : b.strangeSource = some s) :
    b.build = .error (.stateOutOfRange .source s b.stateCount) := by
  rw [build, dif_pos fits]
  split
  · next hsymbol => cases hnone.symm.trans hsymbol
  · next hsource =>
      cases h.symm.trans hsource
      rfl
  · next hsource => cases h.symm.trans hsource

/-- What is reported when nothing strange is remembered, the automaton apart. -/
theorem build_map_of_inRange (fits : Fits b.alphabetSize b.stateCount)
    (hsymbol : b.strangeSymbol = none) (hsource : b.strangeSource = none) :
    (b.build.map fun _ => ()) =
      if b.initial < b.stateCount then
        match b.finals.toList.find? fun f => b.stateCount ≤ f with
        | some f => .error (.stateOutOfRange .final f b.stateCount)
        | none => (targets b.alphabetSize b.stateCount 0 b.cells.toList).map fun _ => ()
      else .error (.stateOutOfRange .initial b.initial b.stateCount) := by
  rw [build, dif_pos fits]
  split
  · next h => cases hsymbol.symm.trans h
  · next h => cases hsource.symm.trans h
  · split
    · split
      · next hf =>
          simp only [hf]
          rfl
      · next hf =>
          simp only [hf]
          split
          · next ht =>
              simp only [ht]
              rfl
          · next ht =>
              simp only [ht]
              rfl
    · rfl

/-- What is reported of a cell without a target in range. -/
def openFault (n s a : Nat) : Option Nat → FormatFault
  | none => .missingTransition s a
  | some t => .stateOutOfRange .target t n

theorem targets_of_open {c : Nat} {cell : Option Nat} {cells : List (Option Nat)}
    (hbefore : ∀ j < c, ∃ t < n, cells[j]? = some (some t)) (hcell : cells[c]? = some cell)
    (hout : ∀ t, cell = some t → n ≤ t) (i : Nat) :
    targets k n i cells = .error (openFault n ((i + c) / k) ((i + c) % k) cell) := by
  induction c generalizing cells i with
  | zero =>
      cases cells with
      | nil => cases hcell
      | cons _ rest =>
          cases hcell
          cases cell with
          | none => rfl
          | some t =>
              rw [targets, dif_neg (Nat.not_lt.2 (hout t rfl))]
              rfl
  | succ c ih =>
      obtain ⟨t, hlt, ht⟩ := hbefore 0 (Nat.zero_lt_succ c)
      cases cells with
      | nil => cases ht
      | cons _ rest =>
          cases ht
          have hrest : ∀ j < c, ∃ t < n, rest[j]? = some (some t) :=
            fun j hj => hbefore (j + 1) (Nat.succ_lt_succ hj)
          rw [targets, dif_pos hlt, ih hrest hcell (i + 1), Nat.add_right_comm, Nat.add_assoc]
          rfl

theorem Ran.targets_of_firstOpen (h : Ran k n steps b) (fits : Fits k n) {d : Draft}
    (hd : d = .ofSteps k n steps) {s a : Nat} (hopen : d.FirstOpen s a) :
    targets d.alphabetSize d.stateCount 0 b.cells.toList =
      .error (openFault d.stateCount s a (d.target s a)) := by
  subst hd
  have hcell {s a : Nat} (hs : s < n) (ha : a < k) :
      b.cells.toList[s * k + a]? = some (lastTarget? steps s a) := by
    rw [Array.getElem?_toList, h.cell fits s hs a ha]
  have hs : s < n := hopen.source_lt
  have ha : a < k := hopen.symbol_lt
  have hbefore : ∀ j < s * k + a, ∃ t < n, b.cells.toList[j]? = some (some t) := by
    intro j hj
    have hj' : j < n * k := Nat.lt_trans hj (cell_lt hs ha)
    obtain ⟨s', a', hs', ha', he⟩ := exists_cell ⟨j, hj'⟩
    obtain rfl : j = s' * k + a' := Fin.ext_iff.1 he
    obtain ⟨t, hlt, ht⟩ := hopen.before s' hs' a' ha' hj
    exact ⟨t, hlt, (hcell hs' ha').trans (congrArg some ht)⟩
  have htargets := targets_of_open (k := k) hbefore (hcell hs ha) hopen.out 0
  rwa [Nat.zero_add, cell_div ha, cell_mod ha] at htargets

theorem Ran.build_map (h : Ran b.alphabetSize b.stateCount steps b)
    (fits : Fits b.alphabetSize b.stateCount)
    (hrange : ∀ s a t, .transition s a t ∈ steps → s < b.stateCount ∧ a < b.alphabetSize)
    {d : Draft} (hd : d = .ofSteps b.alphabetSize b.stateCount steps) :
    (b.build.map fun _ => ()) =
      if d.initial < d.stateCount then
        match d.finals.find? fun f => d.stateCount ≤ f with
        | some f => .error (.stateOutOfRange .final f d.stateCount)
        | none => (targets d.alphabetSize d.stateCount 0 b.cells.toList).map fun _ => ()
      else .error (.stateOutOfRange .initial d.initial d.stateCount) := by
  obtain ⟨hsymbol, hsource⟩ := Automaton.strange_eq_none_iff.2 hrange
  have hmap := build_map_of_inRange fits (h.strangeSymbol.trans hsymbol)
    (h.strangeSource.trans hsource)
  rw [h.initial, h.finals] at hmap
  rw [hd]
  exact hmap

/-- What is wrong with the draft of steps is what is reported of them. -/
theorem Ran.build_of_draft (h : Ran b.alphabetSize b.stateCount steps b)
    (fits : Fits b.alphabetSize b.stateCount)
    (hrange : ∀ s a t, .transition s a t ∈ steps → s < b.stateCount ∧ a < b.alphabetSize)
    {d : Draft} (hd : d = .ofSteps b.alphabetSize b.stateCount steps)
    (hfault : d.FirstFault fault) : b.build = .error fault := by
  have hmap := h.build_map fits hrange hd
  have hcells {s a : Nat} (hq : d.initial < d.stateCount) (hfs : ∀ f ∈ d.finals, f < d.stateCount)
      (hopen : d.FirstOpen s a) : b.build = .error (openFault d.stateCount s a (d.target s a)) := by
    have hfind : d.finals.find? (fun f => decide (d.stateCount ≤ f)) = none :=
      List.find?_eq_none.2 fun f hf => by simpa using hfs f hf
    rw [if_pos hq, hfind, h.targets_of_firstOpen fits hd hopen] at hmap
    exact map_eq_error.1 hmap
  cases hfault with
  | initial hq => exact map_eq_error.1 (hmap.trans (if_neg (Nat.not_lt.2 hq)))
  | final hq hf =>
      rw [if_pos hq, hf.find?_eq fun f => decide_eq_true_iff] at hmap
      exact map_eq_error.1 hmap
  | missing hq hfs hopen hnone =>
      rw [hcells hq hfs hopen, hnone]
      rfl
  | target hq hfs hopen ht =>
      rw [hcells hq hfs hopen, ht]
      rfl

theorem Ran.build_of_firstFault (h : Ran k n steps b)
    (hfault : BuildStep.FirstFault k n steps fault) : b.build = .error fault := by
  have hk := h.alphabetSize
  have hn := h.stateCount
  subst hk hn
  cases hfault with
  | dimensions fits => rw [build, dif_neg fits]
  | symbol fits hfirst =>
      refine build_of_strangeSymbol fits (h.strangeSymbol.trans ?_)
      exact hfirst.findSome?_eq (if_pos hfirst.holds) fun _ => BuildStep.strangeSymbol?_eq_none
  | source fits hsymbol hfirst =>
      refine build_of_strangeSource fits (h.strangeSymbol.trans ?_) (h.strangeSource.trans ?_)
      · refine List.findSome?_eq_none_iff.2 fun step hm => BuildStep.strangeSymbol?_eq_none ?_
        intro hstep
        obtain ⟨s, a, t, rfl, hle⟩ := hstep.exists_eq
        exact Nat.not_lt.2 hle (hsymbol s a t hm)
      · exact hfirst.findSome?_eq (if_pos ⟨hsymbol _ _ _ hfirst.mem, hfirst.holds⟩)
          fun _ => BuildStep.strangeSource?_eq_none
  | draft fits hrange hfault => exact h.build_of_draft fits hrange rfl hfault

end Builder

theorem BuildStep.ofSteps_of_firstFault {k n : Nat} {steps : List BuildStep} {fault : FormatFault}
    (h : FirstFault k n steps fault) : Automaton.ofSteps k n steps = .error fault :=
  (Builder.ran k n steps).build_of_firstFault h

/-- What is reported of steps that build nothing. -/
theorem Automaton.ofSteps_eq_error_iff (k n : Nat) (steps : List BuildStep) (fault : FormatFault) :
    ofSteps k n steps = .error fault ↔ BuildStep.FirstFault k n steps fault :=
  eq_error_iff_of_total (fun _ => BuildStep.ofSteps_of_firstFault)
    (BuildStep.exists_firstFault_or_ofSteps k n steps) fault

end FiniteReach
