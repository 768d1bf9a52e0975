import FiniteReach.Description.Reader
import FiniteReach.Proofs.Builder
import FiniteReach.Proofs.First

/-!
# What a table of numbers gives

Either a table has too many cells, or its numbers are too few, too many or wrongly labelled for their
layout, or the automaton is built from `tableSteps`. `Tabled` says where the numbers have to stand for
an automaton to be built (`table_eq_ok`). In the legacy layout nothing counts but the last numbers of
the triples that hold cells (`table_legacy_congr`), and a square table to which the state-major layout
does not object is the same in both layouts (`table_square`).
-/

namespace FiniteReach

/-! ## How many numbers a table takes -/

namespace Layout

variable {k n m : Nat}

theorem needed?_stateMajor_eq_some :
    stateMajor.needed? k n = some m ↔ 3 * (n * k) < limit ∧ m = 3 * (n * k) := by
  simp only [needed?]
  split
  · next h =>
      simp only [reduceCtorEq, false_iff, not_and]
      omega
  · rw [Option.ite_none_right_eq_some, Option.some.injEq, eq_comm (a := m)]

theorem needed?_legacy_eq_some : legacy.needed? k n = some m ↔ n * k < limit ∧
    (n * k = 0 ∧ m = 0 ∨
      n * k ≠ 0 ∧ 3 * ((n - 1) * n + k) < limit ∧ m = 3 * ((n - 1) * n + k)) := by
  simp only [needed?]
  split
  · next h => simp only [reduceCtorEq, Nat.not_lt.2 h, false_and]
  · next h =>
      rw [Option.ite_none_right_eq_some, Option.some.injEq, eq_comm (b := m)]
      simp only [Nat.lt_of_not_le h, true_and]
      by_cases hcells : n * k = 0
      · simp only [hcells, ↓reduceIte, ne_eq, not_true_eq_false, false_and, or_false, true_and]
        exact and_iff_right (by decide)
      · simp only [hcells, ↓reduceIte, ne_eq, not_false_eq_true, true_and, false_and, false_or]

theorem needed?_square (n : Nat) : legacy.needed? n n = stateMajor.needed? n n := by
  cases n with
  | zero => rfl
  | succ n =>
      have hrows : n * (n + 1) + (n + 1) = (n + 1) * (n + 1) := by rw [Nat.succ_mul n (n + 1)]
      have hcells : (n + 1) * (n + 1) ≠ 0 := by simp
      simp only [needed?, hcells, ↓reduceIte, Nat.add_sub_cancel, hrows]

end Layout

namespace Description

variable {layout : Layout} {header : Header} {flat : Array Nat} {A : Automaton} {m : Nat}

/-! ## Labels -/

/-- The entry of a cell is what stands in its triple. -/
theorem getElem?_triple {k n m : Nat} (needed : layout.needed? k n = some m)
    (enough : m ≤ flat.size) {s a : Nat} (hs : s < n) (ha : a < k) :
    flat[3 * layout.triple k n s a]? =
        some (entry flat needed enough ⟨s * k + a, cell_lt hs ha⟩).1.1 ∧
      flat[3 * layout.triple k n s a + 1]? =
        some (entry flat needed enough ⟨s * k + a, cell_lt hs ha⟩).1.2 ∧
      flat[3 * layout.triple k n s a + 2]? =
        some (entry flat needed enough ⟨s * k + a, cell_lt hs ha⟩).2 := by
  have hlt := Layout.triple_lt needed hs ha
  simp only [entry, cell_div ha, cell_mod ha]
  exact ⟨Array.getElem?_eq_getElem (by omega), Array.getElem?_eq_getElem (by omega),
    Array.getElem?_eq_getElem (by omega)⟩

theorem label_eq_iff {k n m : Nat} (needed : layout.needed? k n = some m) (enough : m ≤ flat.size)
    {s a : Nat} (hs : s < n) (ha : a < k) {label : Nat × Nat} :
    (entry flat needed enough ⟨s * k + a, cell_lt hs ha⟩).1 = label ↔
      flat[3 * layout.triple k n s a]? = some label.1 ∧
        flat[3 * layout.triple k n s a + 1]? = some label.2 := by
  obtain ⟨hrow, hcolumn, _⟩ := getElem?_triple needed enough hs ha
  rw [hrow, hcolumn, Option.some.injEq, Option.some.injEq, Prod.ext_iff]

/-- The label of each triple that holds a cell is the cell. -/
def Labelled (layout : Layout) (header : Header) (flat : Array Nat) : Prop :=
  ∀ s < header.stateCount, ∀ a < header.alphabetSize,
    flat[3 * layout.triple header.alphabetSize header.stateCount s a]? = some s ∧
      flat[3 * layout.triple header.alphabetSize header.stateCount s a + 1]? = some a

/-- No label is found strange exactly if all are right or none counts. -/
theorem find?_strange_eq_none
    (needed : layout.needed? header.alphabetSize header.stateCount = some m)
    (enough : m ≤ flat.size) :
    ((List.finRange (header.stateCount * header.alphabetSize)).find? fun cell =>
        decide (layout = .stateMajor) && (entry flat needed enough cell).1 !=
          (cell / header.alphabetSize, cell % header.alphabetSize)) = none ↔
      (layout = .stateMajor → Labelled layout header flat) := by
  simp only [List.find?_eq_none, List.mem_finRange, forall_const, Bool.and_eq_true,
    decide_eq_true_eq, bne_iff_ne, not_and, not_not]
  constructor
  · intro h hlayout s hs a ha
    have he := h ⟨s * header.alphabetSize + a, cell_lt hs ha⟩ hlayout
    rw [label_eq_iff needed enough hs ha] at he
    simpa only [cell_div ha, cell_mod ha] using he
  · intro h cell hlayout
    obtain ⟨s, a, hs, ha, rfl⟩ := exists_cell cell
    rw [label_eq_iff needed enough hs ha]
    simpa only [cell_div ha, cell_mod ha] using h hlayout s hs a ha

/-! ## Which fault a table has -/

theorem table_of_overflow (h : layout.needed? header.alphabetSize header.stateCount = none) :
    table layout header flat =
      .error (.dimensionOverflow header.stateCount header.alphabetSize) := by
  rw [table]
  simp only
  split
  · rfl
  · next hm => cases h.symm.trans hm

/-- The checks of a table that can be indexed, one after another. -/
theorem table_of_needed (h : layout.needed? header.alphabetSize header.stateCount = some m) :
    table layout header flat =
      if short : flat.size < m then .error (.truncated m flat.size)
      else if layout = .stateMajor ∧ m < flat.size then .error (.trailing m flat.size)
      else
        let entry := entry flat h (Nat.not_lt.1 short)
        match (List.finRange (header.stateCount * header.alphabetSize)).find? fun cell =>
          decide (layout = .stateMajor) &&
            (entry cell).1 != (cell / header.alphabetSize, cell % header.alphabetSize) with
        | some cell => .error (.mislabelled cell
            (cell / header.alphabetSize, cell % header.alphabetSize) (entry cell).1)
        | none => Automaton.ofSteps header.alphabetSize header.stateCount <|
            .initial header.initial :: header.finals.map .final ++
              (List.finRange (header.stateCount * header.alphabetSize)).map fun cell =>
                .transition (cell / header.alphabetSize) (cell % header.alphabetSize)
                  (entry cell).2 := by
  rw [table]
  simp only
  split
  · next hnone => cases h.symm.trans hnone
  · next hm =>
      cases h.symm.trans hm
      split
      · rfl
      · split
        · rfl
        · split
          · next hsome => simp only [hsome]
          · next hnone => simp only [hnone]

theorem table_of_short (h : layout.needed? header.alphabetSize header.stateCount = some m)
    (hshort : flat.size < m) : table layout header flat = .error (.truncated m flat.size) := by
  rw [table_of_needed h, dif_pos hshort]

theorem table_of_long (h : Layout.stateMajor.needed? header.alphabetSize header.stateCount = some m)
    (hlong : m < flat.size) : table .stateMajor header flat = .error (.trailing m flat.size) := by
  rw [table_of_needed h, dif_neg (Nat.not_lt_of_gt hlong), if_pos ⟨rfl, hlong⟩]

/-- The triple of the cell of `s` and `a` is the first one with another label than its cell. -/
structure FirstMislabelled (header : Header) (flat : Array Nat) (s a : Nat) (label : Nat × Nat) :
    Prop where
  source_lt : s < header.stateCount
  symbol_lt : a < header.alphabetSize
  row : flat[3 * (s * header.alphabetSize + a)]? = some label.1
  column : flat[3 * (s * header.alphabetSize + a) + 1]? = some label.2
  ne : label ≠ (s, a)
  before : ∀ s' < header.stateCount, ∀ a' < header.alphabetSize,
    s' * header.alphabetSize + a' < s * header.alphabetSize + a →
      flat[3 * (s' * header.alphabetSize + a')]? = some s' ∧
        flat[3 * (s' * header.alphabetSize + a') + 1]? = some a'

theorem exists_firstMislabelled_or
    (h : Layout.stateMajor.needed? header.alphabetSize header.stateCount = some flat.size) :
    (∃ s a label, FirstMislabelled header flat s a label) ∨ Labelled .stateMajor header flat := by
  have hright {s a : Nat} (hs : s < header.stateCount) (ha : a < header.alphabetSize)
      (hnot : ¬ (entry flat h (Nat.le_refl _) ⟨s * header.alphabetSize + a, cell_lt hs ha⟩).1 ≠
        ((s * header.alphabetSize + a) / header.alphabetSize,
          (s * header.alphabetSize + a) % header.alphabetSize)) :
      flat[3 * (s * header.alphabetSize + a)]? = some s ∧
        flat[3 * (s * header.alphabetSize + a) + 1]? = some a := by
    rw [not_not, cell_div ha, cell_mod ha] at hnot
    exact (label_eq_iff h (Nat.le_refl _) hs ha).1 hnot
  rcases exists_first_or fun cell => (entry flat h (Nat.le_refl _) cell).1 ≠
      (cell / header.alphabetSize, cell % header.alphabetSize) with ⟨c, hc, hbefore⟩ | hall
  · obtain ⟨s, a, hs, ha, rfl⟩ := exists_cell c
    obtain ⟨hrow, hcolumn⟩ := (label_eq_iff h (Nat.le_refl _) hs ha).1 rfl
    rw [cell_div ha, cell_mod ha] at hc
    exact .inl ⟨s, a, _, hs, ha, hrow, hcolumn, hc,
      fun s' hs' a' ha' hlt => hright hs' ha' (hbefore _ hlt)⟩
  · exact .inr fun s hs a ha => hright hs ha (hall _)

theorem table_of_firstMislabelled {s a : Nat} {label : Nat × Nat}
    (h : Layout.stateMajor.needed? header.alphabetSize header.stateCount = some flat.size)
    (hlabel : FirstMislabelled header flat s a label) : table .stateMajor header flat =
      .error (.mislabelled (s * header.alphabetSize + a) (s, a) label) := by
  have hs := hlabel.source_lt
  have ha := hlabel.symbol_lt
  let Strange (cell : Fin (header.stateCount * header.alphabetSize)) : Prop :=
    (entry flat h (Nat.le_refl _) cell).1 ≠ (cell / header.alphabetSize, cell % header.alphabetSize)
  let c : Fin _ := ⟨s * header.alphabetSize + a, cell_lt hs ha⟩
  have hc : (entry flat h (Nat.le_refl _) c).1 = label :=
    (label_eq_iff h (Nat.le_refl _) hs ha).2 ⟨hlabel.row, hlabel.column⟩
  have hstrange : Strange c := by
    simp only [Strange, hc, c, cell_div ha, cell_mod ha]
    exact hlabel.ne
  have hbefore (c' : Fin _) (hlt : c' < c) : ¬ Strange c' := by
    obtain ⟨s', a', hs', ha', rfl⟩ := exists_cell c'
    rw [not_not, label_eq_iff h (Nat.le_refl _) hs' ha', cell_div ha', cell_mod ha']
    exact hlabel.before s' hs' a' ha' hlt
  have hfind := (firstAt_finRange hstrange hbefore).find?_eq
    (p := fun cell => decide (Layout.stateMajor = .stateMajor) &&
      (entry flat h (Nat.le_refl _) cell).1 !=
        (cell / header.alphabetSize, cell % header.alphabetSize)) (by simp [Strange])
  rw [table_of_needed h, dif_neg (Nat.lt_irrefl _), if_neg fun hlong => Nat.lt_irrefl _ hlong.2]
  dsimp only
  rw [hfind]
  simp only [hc, c, cell_div ha, cell_mod ha]

theorem table_of_mislabelled
    (h : Layout.stateMajor.needed? header.alphabetSize header.stateCount = some flat.size)
    (hlabel : ¬ Labelled .stateMajor header flat) :
    ∃ index expected found,
      table .stateMajor header flat = .error (.mislabelled index expected found) := by
  obtain ⟨_, _, _, hfirst⟩ := (exists_firstMislabelled_or h).resolve_right hlabel
  exact ⟨_, _, _, table_of_firstMislabelled h hfirst⟩

/-! ## Tables without faults -/

/-- The steps that build the automaton of a table. -/
def tableSteps (layout : Layout) (header : Header) (flat : Array Nat) : List BuildStep :=
  let k := header.alphabetSize
  let n := header.stateCount
  .initial header.initial :: header.finals.map .final ++ (List.finRange (n * k)).map fun cell =>
    .transition (cell / k) (cell % k)
      (flat[3 * layout.triple k n (cell / k) (cell % k) + 2]?.getD 0)

theorem table_eq_ofSteps (h : layout.needed? header.alphabetSize header.stateCount = some m)
    (henough : m ≤ flat.size)
    (hlabel : layout = .stateMajor → flat.size = m ∧ Labelled layout header flat) :
    table layout header flat = Automaton.ofSteps header.alphabetSize header.stateCount
      (tableSteps layout header flat) := by
  have hnone := (find?_strange_eq_none h henough).2 fun hlayout => (hlabel hlayout).2
  rw [table_of_needed h, dif_neg (Nat.not_lt.2 henough),
    if_neg fun hlong => Nat.ne_of_gt hlong.2 (hlabel hlong.1).1]
  simp only [hnone]
  refine congrArg (Automaton.ofSteps _ _) (congrArg (_ :: _ ++ ·) ?_)
  refine List.map_congr_left fun cell _ => ?_
  have htarget := (getElem?_triple h henough (div_lt_of_cell cell.2) (mod_lt_of_cell cell.2)).2.2
  simp only [Nat.div_add_mod'] at htarget
  rw [htarget, Option.getD_some]

/-- An automaton comes only from the steps of a table that passes all checks. -/
theorem table_eq_ok_iff_ofSteps : table layout header flat = .ok A ↔
    ∃ m, layout.needed? header.alphabetSize header.stateCount = some m ∧ m ≤ flat.size ∧
      (layout = .stateMajor → flat.size = m ∧ Labelled layout header flat) ∧
        Automaton.ofSteps header.alphabetSize header.stateCount (tableSteps layout header flat) =
          .ok A := by
  constructor
  · intro h
    cases hm : layout.needed? header.alphabetSize header.stateCount with
    | none => cases (table_of_overflow hm).symm.trans h
    | some m =>
        have hle : m ≤ flat.size := by
          by_contra hshort
          cases (table_of_short hm (Nat.lt_of_not_le hshort)).symm.trans h
        have hlabel : layout = .stateMajor → flat.size = m ∧ Labelled layout header flat := by
          rintro rfl
          rcases Nat.lt_or_eq_of_le hle with hlong | rfl
          · cases (table_of_long hm hlong).symm.trans h
          · refine ⟨rfl, by_contra fun hnot => ?_⟩
            obtain ⟨_, _, _, hfault⟩ := table_of_mislabelled hm hnot
            cases hfault.symm.trans h
        exact ⟨m, rfl, hle, hlabel, (table_eq_ofSteps hm hle hlabel).symm.trans h⟩
  · rintro ⟨m, hm, hle, hlabel, h⟩
    rw [table_eq_ofSteps hm hle hlabel, h]

/-! ## The automaton of a table -/

/-- The transitions that are read name each cell once, with the target in its triple. -/
theorem mem_entries {k n m : Nat} (needed : layout.needed? k n = some m) (enough : m ≤ flat.size)
    {s a t : Nat} :
    .transition s a t ∈ ((List.finRange (n * k)).map fun cell : Fin (n * k) =>
        BuildStep.transition (cell / k) (cell % k)
          (flat[3 * layout.triple k n (cell / k) (cell % k) + 2]?.getD 0)) ↔
      s < n ∧ a < k ∧ flat[3 * layout.triple k n s a + 2]? = some t := by
  have hsome {s a : Nat} (hs : s < n) (ha : a < k) :
      flat[3 * layout.triple k n s a + 2]? =
        some (flat[3 * layout.triple k n s a + 2]?.getD 0) := by
    rw [(getElem?_triple needed enough hs ha).2.2, Option.getD_some]
  rw [List.mem_map]
  constructor
  · rintro ⟨cell, _, h⟩
    cases h
    exact ⟨div_lt_of_cell cell.2, mod_lt_of_cell cell.2,
      hsome (div_lt_of_cell cell.2) (mod_lt_of_cell cell.2)⟩
  · rintro ⟨hs, ha, ht⟩
    refine ⟨⟨s * k + a, cell_lt hs ha⟩, List.mem_finRange _, ?_⟩
    simp only [cell_div ha, cell_mod ha, ht, Option.getD_some]

theorem ofSteps_tableSteps
    (needed : layout.needed? header.alphabetSize header.stateCount = some m)
    (enough : m ≤ flat.size) :
    Automaton.ofSteps header.alphabetSize header.stateCount (tableSteps layout header flat) =
        .ok A ↔
      A.alphabetSize = header.alphabetSize ∧ A.stateCount = header.stateCount ∧
        A.initial = header.initial ∧ (∀ f, f ∈ A.finals ↔ f ∈ header.finals) ∧
          ∀ s a, flat[3 * layout.triple A.alphabetSize A.stateCount s.1 a.1 + 2]? =
            some (A.next s a).1 := by
  rw [tableSteps, Automaton.ofSteps_eq_ok_of_unique]
  · simp only [mem_entries needed enough, Automaton.mem_transitions]
    constructor
    · rintro ⟨hk, hn, hq, hfs, h⟩
      rw [← hk, ← hn] at h
      exact ⟨hk, hn, hq, hfs, fun s a => ((h _ _ _).2 ⟨s.2, a.2, rfl⟩).2.2⟩
    · rintro ⟨hk, hn, hq, hfs, h⟩
      refine ⟨hk, hn, hq, hfs, fun s a t => ?_⟩
      rw [← hk, ← hn]
      constructor
      · rintro ⟨hs, ha, ht⟩
        exact ⟨hs, ha, Option.some.inj ((h ⟨s, hs⟩ ⟨a, ha⟩).symm.trans ht)⟩
      · rintro ⟨hs, ha, rfl⟩
        exact ⟨hs, ha, h ⟨s, hs⟩ ⟨a, ha⟩⟩
  · intro step hm
    obtain ⟨cell, _, rfl⟩ := List.mem_map.1 hm
    exact ⟨_, _, _, rfl⟩
  -- No cell is set twice, so the order of the transitions does not matter.
  · intro s a t t' h h'
    exact Option.some.inj (((mem_entries needed enough).1 h).2.2.symm.trans
      ((mem_entries needed enough).1 h').2.2)

/-- The numbers after a header hold the targets of `A` where the layout puts them, with the labels
and the length that it asks for. -/
structure Tabled (layout : Layout) (A : Automaton) (flat : Array Nat) : Prop where
  needed : ∃ m, layout.needed? A.alphabetSize A.stateCount = some m ∧ m ≤ flat.size ∧
    (layout = .stateMajor → flat.size = m)
  target : ∀ s a, flat[3 * layout.triple A.alphabetSize A.stateCount s.1 a.1 + 2]? =
    some (A.next s a).1
  label : layout = .stateMajor → ∀ (s : Fin A.stateCount) (a : Fin A.alphabetSize),
    flat[3 * layout.triple A.alphabetSize A.stateCount s.1 a.1]? = some s.1 ∧
      flat[3 * layout.triple A.alphabetSize A.stateCount s.1 a.1 + 1]? = some a.1

theorem table_eq_ok : table layout header flat = .ok A ↔
    A.alphabetSize = header.alphabetSize ∧ A.stateCount = header.stateCount ∧
      A.initial = header.initial ∧ (∀ f, f ∈ A.finals ↔ f ∈ header.finals) ∧
        Tabled layout A flat := by
  rw [table_eq_ok_iff_ofSteps]
  constructor
  · rintro ⟨m, hm, hle, hlabel, h⟩
    obtain ⟨hk, hn, hq, hfs, htarget⟩ := (ofSteps_tableSteps hm hle).1 h
    refine ⟨hk, hn, hq, hfs, ⟨m, by rw [hk, hn, hm], hle, fun hlayout => (hlabel hlayout).1⟩,
      htarget, fun hlayout s a => ?_⟩
    have hcells := (hlabel hlayout).2
    rw [Labelled, ← hk, ← hn] at hcells
    exact hcells s.1 s.2 a.1 a.2
  · rintro ⟨hk, hn, hq, hfs, h⟩
    obtain ⟨m, hm, hle, hsize⟩ := h.needed
    rw [hk, hn] at hm
    refine ⟨m, hm, hle, fun hlayout => ⟨hsize hlayout, ?_⟩,
      (ofSteps_tableSteps hm hle).2 ⟨hk, hn, hq, hfs, h.target⟩⟩
    rw [Labelled, ← hk, ← hn]
    exact fun s hs a ha => h.label hlayout ⟨s, hs⟩ ⟨a, ha⟩

/-! ## Two tables -/

/-- In the legacy layout only the last numbers of the cells' triples count. -/
theorem table_legacy_congr {flat' : Array Nat}
    (h : header.stateCount * header.alphabetSize ≠ 0 →
      3 * ((header.stateCount - 1) * header.stateCount + header.alphabetSize) ≤ flat.size ∧
        3 * ((header.stateCount - 1) * header.stateCount + header.alphabetSize) ≤ flat'.size)
    (hagree : ∀ s < header.stateCount, ∀ a < header.alphabetSize,
      flat[3 * (s * header.stateCount + a) + 2]? = flat'[3 * (s * header.stateCount + a) + 2]?) :
    table .legacy header flat = table .legacy header flat' := by
  cases hm : Layout.legacy.needed? header.alphabetSize header.stateCount with
  | none => rw [table_of_overflow hm, table_of_overflow hm]
  | some m =>
      obtain ⟨hle, hle'⟩ : m ≤ flat.size ∧ m ≤ flat'.size := by
        rcases Layout.needed?_legacy_eq_some.1 hm with ⟨_, ⟨_, rfl⟩ | ⟨hcells, _, rfl⟩⟩
        · exact ⟨Nat.zero_le _, Nat.zero_le _⟩
        · exact h hcells
      rw [table_eq_ofSteps hm hle nofun, table_eq_ofSteps hm hle' nofun]
      refine congrArg (Automaton.ofSteps _ _) (congrArg (_ :: _ ++ ·) ?_)
      refine List.map_congr_left fun cell _ => ?_
      rw [Layout.triple, hagree _ (div_lt_of_cell cell.2) _ (mod_lt_of_cell cell.2)]

/-- On square tables the layouts differ only in what the state-major one objects to. -/
theorem table_square (h : header.alphabetSize = header.stateCount)
    (hlong : ∀ expected found,
      table .stateMajor header flat ≠ .error (.trailing expected found))
    (hlabel : ∀ index expected found,
      table .stateMajor header flat ≠ .error (.mislabelled index expected found)) :
    table .legacy header flat = table .stateMajor header flat := by
  have hneeded : Layout.legacy.needed? header.alphabetSize header.stateCount =
      Layout.stateMajor.needed? header.alphabetSize header.stateCount := by
    rw [h, Layout.needed?_square]
  cases hm : Layout.stateMajor.needed? header.alphabetSize header.stateCount with
  | none => rw [table_of_overflow hm, table_of_overflow (hneeded.trans hm)]
  | some m =>
      rcases Nat.lt_trichotomy flat.size m with hlt | rfl | hgt
      · rw [table_of_short hm hlt, table_of_short (hneeded.trans hm) hlt]
      · have hlabelled : Labelled .stateMajor header flat := by
          by_contra hnot
          obtain ⟨index, expected, found, hfault⟩ := table_of_mislabelled hm hnot
          exact hlabel _ _ _ hfault
        rw [table_eq_ofSteps hm (Nat.le_refl _) fun _ => ⟨rfl, hlabelled⟩,
          table_eq_ofSteps (hneeded.trans hm) (Nat.le_refl _) nofun]
        simp only [tableSteps, Layout.triple, h]
      · exact absurd (table_of_long hm hgt) (hlong _ _)

end Description

end FiniteReach
