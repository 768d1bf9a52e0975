import FiniteReach.Proofs.Construction
import FiniteReach.Proofs.DigitRuns
import FiniteReach.Proofs.Printer

/-!
# The grammar of descriptions

Which bytes describe an automaton, for each of the two layouts. A state-major description of `A` is
a digit stream of its header, with its final states in any order and number, and of the triples of
all its cells in their order (`load_stateMajor_eq_ok_iff`). A legacy description may hold anything
where no cell looks (`load_legacy_of_denotes`).
-/

namespace FiniteReach.Description

variable {layout : Layout} {header : Header} {A : Automaton}

/-! ## The state-major layout -/

/-- A stream describes `A` in the state-major layout exactly if its digit runs are the header of
`A`, whose final states may come in any order and repeatedly, and the cells of `A`. -/
theorem load_stateMajor_eq_ok_iff (bs : Bytes) (path : Option String) (A : Automaton) :
    load .stateMajor (.ofBytes bs) path = .ok A ↔
      3 * A.stateCount * A.alphabetSize < limit ∧ ∃ finals, (∀ f, f ∈ finals ↔ f ∈ A.finals) ∧
        Numeral.Denotes bs ([A.alphabetSize, A.stateCount, A.initial, finals.length] ++ finals ++
          A.cellNumbers) := by
  rw [load_eq_ok]
  simp only [table_eq_ok, tabled_stateMajor_iff, Source.numbers_eq_iff]
  constructor
  · rintro ⟨header, flat, hnumbers, hk, hn, hq, hfs, hlt, rfl⟩
    refine ⟨hlt, header.finals, fun f => (hfs f).symm, ?_⟩
    rwa [hk, hn, hq]
  · rintro ⟨hlt, finals, hfs, hnumbers⟩
    exact ⟨⟨A.alphabetSize, A.stateCount, A.initial, finals⟩, A.cellNumbers, hnumbers, rfl, rfl,
      rfl, fun f => (hfs f).symm, hlt, rfl⟩

/-! ## The legacy layout -/

theorem table_legacy_eq_ok_iff {flat : Array Nat} : table .legacy header flat = .ok A ↔
    A.Holds (.ofTable .legacy header flat) ∧
      ∃ m, Layout.legacy.needed? header.alphabetSize header.stateCount = some m ∧
        m ≤ flat.size := by
  constructor
  · intro h
    obtain ⟨hk, hn, _, _, htabled⟩ := table_eq_ok.1 h
    obtain ⟨m, hm, hle, _⟩ := htabled.needed
    exact ⟨Automaton.holds_of_table h, m, hk ▸ hn ▸ hm, hle⟩
  · rintro ⟨h, m, hm, hle⟩
    have hk : A.alphabetSize = header.alphabetSize := h.alphabetSize
    have hn : A.stateCount = header.stateCount := h.stateCount
    refine table_eq_ok.2 ⟨hk, hn, h.initial, h.mem_finals, ?_, fun s a => ?_, nofun⟩
    · exact ⟨m, by rw [hk, hn, hm], hle, nofun⟩
    · have ht := (h.target s a _).2 (Automaton.mem_transitions.2 ⟨s.2, a.2, rfl⟩)
      simp only [Draft.ofTable, ← hk, ← hn, Option.ite_none_right_eq_some] at ht
      exact ht.2

/-- The draft of a table is well formed if all its cells hold states. -/
theorem wellFormed_ofTable_iff {flat : Array Nat} : (Draft.ofTable layout header flat).WellFormed ↔
    header.stateCount * header.alphabetSize < limit ∧ header.initial < header.stateCount ∧
      (∀ f ∈ header.finals, f < header.stateCount) ∧
        ∀ s < header.stateCount, ∀ a < header.alphabetSize, ∃ t < header.stateCount,
          flat[3 * layout.triple header.alphabetSize header.stateCount s a + 2]? = some t := by
  constructor
  · intro h
    refine ⟨h.size_lt, h.initial_lt, h.finals_lt, fun s hs a ha => ?_⟩
    obtain ⟨t, ht⟩ := Option.isSome_iff_exists.1 ((h.target_isSome s a).2 ⟨hs, ha⟩)
    have htarget := h.target_lt s a t ht
    simp only [Draft.ofTable, Option.ite_none_right_eq_some] at ht
    exact ⟨t, htarget, ht.2⟩
  · rintro ⟨hsize, hq, hfs, htarget⟩
    refine ⟨hsize, hq, hfs, fun s a => ?_, fun s a t ht => ?_⟩
    · simp only [Draft.ofTable]
      split
      · next h =>
          obtain ⟨t, _, ht⟩ := htarget s h.1 a h.2
          exact iff_of_true (ht ▸ rfl) h
      · next h => exact iff_of_false Bool.false_ne_true h
    · simp only [Draft.ofTable, Option.ite_none_right_eq_some] at ht
      obtain ⟨t', hlt, ht'⟩ := htarget s ht.1.1 a ht.1.2
      cases ht.2.symm.trans ht'
      exact hlt

theorem exists_table_legacy_iff {flat : Array Nat} (hlimit : header.stateCount < limit) :
    (∃ A, table .legacy header flat = .ok A) ↔
      let k := header.alphabetSize
      let n := header.stateCount
      n * k < limit ∧ header.initial < n ∧ (∀ f ∈ header.finals, f < n) ∧
        (k = 0 ∨ 3 * ((n - 1) * n + k) < limit ∧ 3 * ((n - 1) * n + k) ≤ flat.size ∧
          ∀ i < n, ∀ j < k, ∃ t < n, flat[3 * (i * n + j) + 2]? = some t) := by
  simp only [table_legacy_eq_ok_iff, exists_and_right, Layout.needed?_legacy_eq_some]
  constructor
  · rintro ⟨⟨A, hA⟩, m, ⟨_, hm⟩, hle⟩
    obtain ⟨hsize, hq, hfs, htarget⟩ := wellFormed_ofTable_iff.1 hA.wellFormed
    refine ⟨hsize, hq, hfs, ?_⟩
    rcases Nat.eq_zero_or_pos header.alphabetSize with hk | hk
    · exact Or.inl hk
    · rcases hm with ⟨hcells, _⟩ | ⟨_, hlt, rfl⟩
      · exact absurd hcells (Nat.mul_pos (Nat.zero_lt_of_lt hq) hk).ne'
      · exact Or.inr ⟨hlt, hle, htarget⟩
  · rintro ⟨hsize, hq, hfs, hcase⟩
    -- Over an empty alphabet there are no cells that could lack a target.
    have htarget : ∀ s < header.stateCount, ∀ a < header.alphabetSize,
        ∃ t < header.stateCount, flat[3 * (s * header.stateCount + a) + 2]? = some t := by
      rcases hcase with hk | ⟨_, _, htarget⟩
      · exact fun s _ a ha => absurd (hk ▸ ha) (Nat.not_lt_zero a)
      · exact htarget
    refine ⟨⟨_, Draft.holds_automaton (wellFormed_ofTable_iff.2 ⟨hsize, hq, hfs, htarget⟩) hlimit⟩,
      ?_⟩
    by_cases hcells : header.stateCount * header.alphabetSize = 0
    · exact ⟨0, ⟨hsize, Or.inl ⟨hcells, rfl⟩⟩, Nat.zero_le _⟩
    · rcases hcase with hk | ⟨hlt, hle, _⟩
      · exact absurd (by rw [hk, Nat.mul_zero]) hcells
      · exact ⟨_, ⟨hsize, Or.inr ⟨hcells, hlt, rfl⟩⟩, hle⟩

theorem step_of_table_legacy {flat : Array Nat} (h : table .legacy header flat = .ok A) {i j : Nat}
    (hi : i < header.stateCount) (hj : j < header.alphabetSize) :
    ∃ t, flat[3 * (i * header.stateCount + j) + 2]? = some t ∧ A.step i j = .ok t := by
  have hA := (table_legacy_eq_ok_iff.1 h).1
  have hk : A.alphabetSize = header.alphabetSize := hA.alphabetSize
  have hn : A.stateCount = header.stateCount := hA.stateCount
  have hmem := Automaton.mem_transitions.2 ⟨hn ▸ hi, hk ▸ hj, rfl⟩
  have ht := (hA.target i j _).2 hmem
  simp only [Draft.ofTable, Option.ite_none_right_eq_some] at ht
  exact ⟨_, ht.2, Automaton.step_eq_ok.2 hmem⟩

/-- What a legacy description says after its header depends on what the cells look at, and on
nothing else that stands there. -/
theorem load_legacy_of_denotes {bs : Bytes} {k n q : Nat} {finals rest : List Nat}
    (h : Numeral.Denotes bs ([k, n, q, finals.length] ++ finals ++ rest)) (path : Option String) :
    ((∃ A, load .legacy (.ofBytes bs) path = .ok A) ↔
      n * k < limit ∧ q < n ∧ (∀ f ∈ finals, f < n) ∧
        (k = 0 ∨ 3 * ((n - 1) * n + k) < limit ∧ 3 * ((n - 1) * n + k) ≤ rest.length ∧
          ∀ i < n, ∀ j < k, ∃ t < n, rest[3 * (i * n + j) + 2]? = some t)) ∧
    (∀ A, load .legacy (.ofBytes bs) path = .ok A →
      A.alphabetSize = k ∧ A.stateCount = n ∧ A.initial = q ∧ (∀ f, f ∈ A.finals ↔ f ∈ finals) ∧
        ∀ i < n, ∀ j < k, ∃ t, rest[3 * (i * n + j) + 2]? = some t ∧ A.step i j = .ok t) ∧
    ∀ bs' rest' path', Numeral.Denotes bs' ([k, n, q, finals.length] ++ finals ++ rest') →
      (k = 0 ∨ 3 * ((n - 1) * n + k) ≤ rest.length ∧ 3 * ((n - 1) * n + k) ≤ rest'.length) →
      (∀ i < n, ∀ j < k, rest[3 * (i * n + j) + 2]? = rest'[3 * (i * n + j) + 2]?) →
      load .legacy (.ofBytes bs') path' = load .legacy (.ofBytes bs) path := by
  let header : Header := ⟨k, n, q, finals⟩
  have hload (bs : Bytes) (rest : List Nat) (path : Option String)
      (h : Numeral.Denotes bs ([k, n, q, finals.length] ++ finals ++ rest)) :
      load .legacy (.ofBytes bs) path =
        (table .legacy header rest.toArray).mapError .malformed :=
    load_of_numbers (Source.numbers_eq_iff.2 h) path
  rw [hload bs rest path h]
  simp only [mapError_eq_ok]
  refine ⟨?_, fun A hA => ?_, fun bs' rest' path' h' hlong hagree => ?_⟩
  · have hlimit : n < limit := h.lt (by simp)
    simpa only [List.size_toArray, List.getElem?_toArray] using
      @exists_table_legacy_iff header rest.toArray hlimit
  · obtain ⟨hk, hn, hq, hfs, _⟩ := table_eq_ok.1 hA
    refine ⟨hk, hn, hq, hfs, fun i hi j hj => ?_⟩
    simpa only [List.getElem?_toArray] using step_of_table_legacy hA hi hj
  · rw [hload bs' rest' path' h']
    refine congrArg (Except.mapError _) (table_legacy_congr (fun hcells => ?_) fun s hs a ha => ?_)
    · rcases hlong with hk | hlong
      · exact absurd (show n * k = 0 by rw [hk, Nat.mul_zero]) hcells
      · exact hlong.symm
    · simpa only [List.getElem?_toArray] using (hagree s hs a ha).symm

/-- Two descriptions of two states that one symbol swaps, with different numbers beside the targets
and behind them. -/
theorem load_legacy_swap :
    Numeral.Denotes (Text.utf8 "1 2 0 2 1 1  0 0 1  9 9 9  7 7 0")
        ([1, 2, 0, 2] ++ [1, 1] ++ [0, 0, 1, 9, 9, 9, 7, 7, 0]) ∧
      Numeral.Denotes (Text.utf8 "1,2,0;2:1,1(5,5,1)(8,8,8)(1,0,0)42")
        ([1, 2, 0, 2] ++ [1, 1] ++ [5, 5, 1, 8, 8, 8, 1, 0, 0, 42]) ∧
      (∃ A, load .legacy (.ofBytes (Text.utf8 "1 2 0 2 1 1  0 0 1  9 9 9  7 7 0")) none = .ok A ∧
        A.step 0 0 = .ok 1 ∧ A.step 1 0 = .ok 0) ∧
      load .legacy (.ofBytes (Text.utf8 "1,2,0;2:1,1(5,5,1)(8,8,8)(1,0,0)42")) none =
        load .legacy (.ofBytes (Text.utf8 "1 2 0 2 1 1  0 0 1  9 9 9  7 7 0")) none := by
  have h : Numeral.Denotes (Text.utf8 "1 2 0 2 1 1  0 0 1  9 9 9  7 7 0")
      ([1, 2, 0, 2] ++ [1, 1] ++ [0, 0, 1, 9, 9, 9, 7, 7, 0]) :=
    Source.numbers_eq_iff.1 (by rfl)
  have h' : Numeral.Denotes (Text.utf8 "1,2,0;2:1,1(5,5,1)(8,8,8)(1,0,0)42")
      ([1, 2, 0, 2] ++ [1, 1] ++ [5, 5, 1, 8, 8, 8, 1, 0, 0, 42]) :=
    Source.numbers_eq_iff.1 (by rfl)
  obtain ⟨hiff, hsteps, hcongr⟩ := @load_legacy_of_denotes _ 1 2 0 [1, 1] _ h none
  obtain ⟨A, hA⟩ := hiff.2 ⟨by decide, by decide, by decide, Or.inr (by decide)⟩
  obtain ⟨_, _, _, _, hstep⟩ := hsteps A hA
  obtain ⟨_, ht, hstep₀⟩ := hstep 0 (by decide) 0 (by decide)
  obtain ⟨_, ht', hstep₁⟩ := hstep 1 (by decide) 0 (by decide)
  cases ht
  cases ht'
  exact ⟨h, h', ⟨A, hA, hstep₀, hstep₁⟩,
    hcongr _ _ none h' (Or.inr (by decide)) (by decide)⟩

end FiniteReach.Description
