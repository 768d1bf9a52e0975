import FiniteReach.Proofs.Grammar

/-!
# One description in both layouts

What is printed for an automaton can be read in the legacy layout as well. If there are fewer symbols
than states, more than one of these, then its numbers do not suffice. Otherwise another automaton may
come out, without any fault: its rows overlap in the numbers of the first (`Relaid`,
`load_legacy_encode`). On square tables the layouts agree, and no source makes a difference between
them but by its labels and by what is left over (`load_legacy_eq_load_stateMajor`).
-/

namespace FiniteReach

/-! ## Rows that overlap -/

/-- `B` has the states of `A`, but the row of a state starts in the table of `A` only as many cells
after the one before it as there are states. -/
structure Automaton.Relaid (A B : Automaton) : Prop where
  alphabetSize : B.alphabetSize = A.alphabetSize
  stateCount : B.stateCount = A.stateCount
  initial : B.initial = A.initial
  finals : B.finals = A.finals
  step : ∀ i < A.stateCount, ∀ j < A.alphabetSize,
    B.step i j = A.step ((i * A.stateCount + j) / A.alphabetSize)
      ((i * A.stateCount + j) % A.alphabetSize)

theorem Automaton.Relaid.eq {A B : Automaton} (h : A.Relaid B)
    (hshape : A.alphabetSize = 0 ∨ A.stateCount = 1 ∨ A.alphabetSize = A.stateCount) : B = A := by
  refine (ext_step h.alphabetSize.symm h.stateCount.symm h.initial.symm h.finals.symm
    fun i hi j hj => ?_).symm
  have hcell : i * A.stateCount + j = i * A.alphabetSize + j := by
    rcases hshape with hk | hn | hk
    · exact absurd (hk ▸ hj) (Nat.not_lt_zero j)
    · cases Nat.lt_one_iff.1 (hn ▸ hi)
      rw [Nat.zero_mul, Nat.zero_mul]
    · rw [hk]
  rw [h.step i hi j hj, hcell, cell_div hj, cell_mod hj]

namespace Description

variable {A : Automaton}

/-! ## Printed descriptions -/

/-- The legacy layout asks for no more cells than there are exactly if there is one row only or no
fewer columns than rows. -/
theorem stride_le_iff {n k : Nat} (hn : 0 < n) : (n - 1) * n + k ≤ n * k ↔ n = 1 ∨ n ≤ k := by
  -- With `n = p + 1` both sides end in `k`, which leaves `p * n ≤ p * k`.
  obtain ⟨p, rfl⟩ : ∃ p, n = p + 1 := ⟨n - 1, by omega⟩
  rw [Nat.add_sub_cancel, Nat.succ_mul p k, Nat.add_le_add_iff_right]
  rcases Nat.eq_zero_or_pos p with rfl | hp
  · simp only [Nat.zero_mul, Nat.le_refl, Nat.zero_add, true_or]
  · rw [Nat.mul_le_mul_left_iff hp, or_iff_right (by omega)]

/-- The cell that the legacy layout takes for the one of `i` and `j` is a cell. -/
theorem legacy_cell_lt {n k i j : Nat} (hshape : k = 0 ∨ n = 1 ∨ n ≤ k) (hi : i < n) (hj : j < k) :
    i * n + j < n * k := by
  have hk : k ≠ 0 := Nat.pos_iff_ne_zero.1 (Nat.zero_lt_of_lt hj)
  have hstride := (stride_le_iff (Nat.zero_lt_of_lt hi)).2 (hshape.resolve_left hk)
  have hrow : i * n ≤ (n - 1) * n := Nat.mul_le_mul_right n (Nat.le_sub_one_of_lt hi)
  omega

/-- The target of a cell, wherever it is looked for. -/
theorem getElem?_target {c : Nat} (hc : c < A.stateCount * A.alphabetSize) :
    ∃ t < A.stateCount, A.cellNumbers[3 * c + 2]? = some t ∧
      A.step (c / A.alphabetSize) (c % A.alphabetSize) = .ok t := by
  have htarget := (A.getElem?_cellNumbers ⟨_, div_lt_of_cell hc⟩ ⟨_, mod_lt_of_cell hc⟩).2.2
  simp only [Nat.div_add_mod'] at htarget
  exact ⟨_, Fin.isLt _, htarget, Automaton.step_next ⟨_, div_lt_of_cell hc⟩ ⟨_, mod_lt_of_cell hc⟩⟩

theorem exists_table_cellNumbers
    (hlimit : 3 * ((A.stateCount - 1) * A.stateCount + A.alphabetSize) < limit)
    (hshape : A.alphabetSize = 0 ∨ A.stateCount = 1 ∨ A.stateCount ≤ A.alphabetSize) :
    ∃ B, table .legacy (.ofAutomaton A) A.cellNumbers.toArray = .ok B ∧ A.Relaid B := by
  obtain ⟨B, hB⟩ : ∃ B, table .legacy (.ofAutomaton A) A.cellNumbers.toArray = .ok B := by
    refine (exists_table_legacy_iff A.stateCount_lt).2 ⟨A.size_lt, A.initial_lt, A.finals_lt, ?_⟩
    refine hshape.imp_right fun hrows => ⟨hlimit, ?_, fun i hi j hj => ?_⟩
    · rw [List.size_toArray, A.length_cellNumbers]
      exact Nat.mul_le_mul_left 3 ((stride_le_iff (Nat.zero_lt_of_lt A.initial_lt)).2 hrows)
    · obtain ⟨t, hlt, ht, _⟩ := getElem?_target (legacy_cell_lt hshape hi hj)
      exact ⟨t, hlt, by rwa [List.getElem?_toArray]⟩
  obtain ⟨hk, hn, hq, hfs, _⟩ := table_eq_ok.1 hB
  refine ⟨B, hB, hk, hn, hq, ?_, fun i hi j hj => ?_⟩
  · exact B.finals_ascending.eq_of_mem_iff A.finals_ascending fun {f} => hfs f
  -- What the legacy layout reads for a cell is the target of the cell that stands there.
  · obtain ⟨t, ht, hstep⟩ := step_of_table_legacy hB hi hj
    obtain ⟨t', _, ht', hstep'⟩ := getElem?_target (legacy_cell_lt hshape hi hj)
    rw [List.getElem?_toArray] at ht
    cases ht.symm.trans ht'
    rw [hstep, hstep']

theorem table_cellNumbers_of_lt
    (hlimit : 3 * ((A.stateCount - 1) * A.stateCount + A.alphabetSize) < limit)
    (hk : 0 < A.alphabetSize) (hlt : A.alphabetSize < A.stateCount) :
    table .legacy (.ofAutomaton A) A.cellNumbers.toArray =
      .error (.truncated (3 * ((A.stateCount - 1) * A.stateCount + A.alphabetSize))
        (3 * A.stateCount * A.alphabetSize)) := by
  have hcells : A.stateCount * A.alphabetSize ≠ 0 :=
    (Nat.mul_pos (Nat.zero_lt_of_lt hlt) hk).ne'
  have hneeded : Layout.legacy.needed? A.alphabetSize A.stateCount =
      some (3 * ((A.stateCount - 1) * A.stateCount + A.alphabetSize)) :=
    Layout.needed?_legacy_eq_some.2 ⟨A.size_lt, Or.inr ⟨hcells, hlimit, rfl⟩⟩
  have hrows : ¬ (A.stateCount = 1 ∨ A.stateCount ≤ A.alphabetSize) := by omega
  have hstride := mt (stride_le_iff (Nat.zero_lt_of_lt hlt)).1 hrows
  have hsize : A.cellNumbers.toArray.size = 3 * (A.stateCount * A.alphabetSize) :=
    A.length_cellNumbers
  rw [table_of_short hneeded (by omega), hsize, Nat.mul_assoc 3 A.stateCount]

/-- What the legacy layout makes of a printed automaton: the automaton itself, a fault, or another
automaton, depending on which of symbols and states there are more. -/
theorem load_legacy_encode (A : Automaton)
    (hlimit : 3 * ((A.stateCount - 1) * A.stateCount + A.alphabetSize) < limit)
    (path : Option String) :
    (A.alphabetSize = 0 ∨ A.stateCount = 1 ∨ A.alphabetSize = A.stateCount →
      load .legacy (.ofBytes (Format.text.encode A)) path = .ok A) ∧
    (0 < A.alphabetSize → A.alphabetSize < A.stateCount →
      load .legacy (.ofBytes (Format.text.encode A)) path =
        .error (.malformed (.truncated
          (3 * ((A.stateCount - 1) * A.stateCount + A.alphabetSize))
          (3 * A.stateCount * A.alphabetSize)))) ∧
    (2 ≤ A.stateCount → A.stateCount < A.alphabetSize →
      ∃ B, load .legacy (.ofBytes (Format.text.encode A)) path = .ok B ∧ A.Relaid B) := by
  have hload : load .legacy (.ofBytes (Format.text.encode A)) path =
      (table .legacy (.ofAutomaton A) A.cellNumbers.toArray).mapError .malformed :=
    load_lines_eq .legacy path
  simp only [hload, mapError_eq_ok]
  refine ⟨fun hshape => ?_, fun hk hlt => ?_, fun _ hlt => ?_⟩
  · have hrows : A.alphabetSize = 0 ∨ A.stateCount = 1 ∨ A.stateCount ≤ A.alphabetSize :=
      hshape.imp_right fun h => h.imp_right fun h => Nat.le_of_eq h.symm
    obtain ⟨B, hB, hrelaid⟩ := exists_table_cellNumbers hlimit hrows
    rw [hB, hrelaid.eq hshape]
  · rw [table_cellNumbers_of_lt hlimit hk hlt]
    rfl
  · exact exists_table_cellNumbers hlimit (Or.inr (Or.inr (Nat.le_of_lt hlt)))

end Description

/-- The legacy layout takes the last cell of the first row for the first cell of the second. -/
theorem Description.wide_load_legacy :
    3 * ((Automaton.wide.stateCount - 1) * Automaton.wide.stateCount +
        Automaton.wide.alphabetSize) < limit ∧
      ∃ B, load .legacy (.ofBytes (Format.text.encode Automaton.wide)) none = .ok B ∧
        B.step 1 0 = .ok 1 ∧ Automaton.wide.step 1 0 = .ok 2 := by
  have hlimit : 3 * ((Automaton.wide.stateCount - 1) * Automaton.wide.stateCount +
      Automaton.wide.alphabetSize) < limit := by decide
  obtain ⟨B, hB, hrelaid⟩ :=
    (load_legacy_encode Automaton.wide hlimit none).2.2 (by decide) (by decide)
  exact ⟨hlimit, B, hB, hrelaid.step 1 (by decide) 0 (by decide), rfl⟩

namespace Description

/-! ## Square tables -/

/-- On a source that declares as many symbols as states, or whose header cannot be read, the layouts
differ only in what the state-major one objects to. -/
theorem load_legacy_eq_load_stateMajor {src : Source} {path : Option String}
    (hsquare : ∀ k n q finals rest,
      src.numbers = ([k, n, q, finals.length] ++ finals).map .ok ++ rest → k = n)
    (hlong : ∀ expected found,
      load .stateMajor src path ≠ .error (.malformed (.trailing expected found)))
    (hlabel : ∀ index expected found,
      load .stateMajor src path ≠ .error (.malformed (.mislabelled index expected found))) :
    load .legacy src path = load .stateMajor src path := by
  rcases load_eq_error_or_exists_numbers src path with ⟨fault, hfault⟩ | ⟨header, flat, hnumbers⟩
  · rw [hfault, hfault]
  · rw [load_of_numbers hnumbers] at hlong hlabel ⊢
    rw [load_of_numbers hnumbers, table_square]
    · exact hsquare _ _ _ _ (flat.map .ok) (by rw [hnumbers, List.map_append]; rfl)
    · exact fun expected found h => hlong expected found (by rw [h]; rfl)
    · exact fun index expected found h => hlabel index expected found (by rw [h]; rfl)

/-- A state that is out of range is the same fault in both layouts. -/
theorem load_legacy_target :
    load .stateMajor (.ofBytes (Text.utf8 "2 2 0 1 1  0 0 0  0 1 1  1 0 1  1 1 7")) none =
        .error (.malformed (.stateOutOfRange .target 7 2)) ∧
      load .legacy (.ofBytes (Text.utf8 "2 2 0 1 1  0 0 0  0 1 1  1 0 1  1 1 7")) none =
        .error (.malformed (.stateOutOfRange .target 7 2)) := by
  have hnumbers : (Source.ofBytes (Text.utf8 "2 2 0 1 1  0 0 0  0 1 1  1 0 1  1 1 7")).numbers =
      [2, 2, 0, 1, 1, 0, 0, 0, 0, 1, 1, 1, 0, 1, 1, 1, 7].map .ok := by rfl
  have hfault : load .stateMajor
      (.ofBytes (Text.utf8 "2 2 0 1 1  0 0 0  0 1 1  1 0 1  1 1 7")) none =
        .error (.malformed (.stateOutOfRange .target 7 2)) := by rfl
  refine ⟨hfault, hfault ▸ load_legacy_eq_load_stateMajor ?_ ?_ ?_⟩
  · intro k n q finals rest h
    rw [hnumbers] at h
    simp only [List.map_cons, List.cons_append, List.cons.injEq, Except.ok.injEq] at h
    exact h.1.symm.trans h.2.1
  · rw [hfault]
    nofun
  · rw [hfault]
    nofun

end Description

end FiniteReach
