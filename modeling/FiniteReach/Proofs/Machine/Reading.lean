import FiniteReach.Proofs.Machine
import FiniteReach.Proofs.Machine.Building
import FiniteReach.Proofs.Table

/-!
# Reading tables on the machine

Before a table is read, the length of its numbers is compared with a bound for the whole table. What
is read stands at places that are worked out cell by cell. If the comparison finds nothing wrong,
all these places are words and within the numbers (`reads_covered`), so nothing traps on the way from
a header and its numbers to an automaton (`table_eq`).
-/

namespace FiniteReach

variable {layout : Layout} {k n found m : Nat} {header : Description.Header}
  {flat : Array Nat}

/-! ## The length of a table -/

/-- What is wrong with the number of numbers that a table has. -/
def Layout.check (layout : Layout) (k n found : Nat) : Except FormatFault Unit :=
  match layout.needed? k n with
  | none => .error (.dimensionOverflow n k)
  | some m =>
    if found < m then .error (.truncated m found)
    else if layout = .stateMajor ∧ m < found then .error (.trailing m found)
    else .ok ()

theorem Layout.check_eq_ok_iff : layout.check k n found = .ok () ↔
    ∃ m, layout.needed? k n = some m ∧ m ≤ found ∧ ¬ (layout = .stateMajor ∧ m < found) := by
  rw [check]
  cases layout.needed? k n with
  | none => simp only [reduceCtorEq, false_and, exists_false]
  | some m =>
      simp only [Option.some.injEq, exists_eq_left']
      split
      · next h => exact iff_of_false nofun fun hok => Nat.not_le.2 h hok.1
      · next h =>
          split
          · next hlong => exact iff_of_false nofun fun hok => hok.2 hlong
          · next hlong => exact iff_of_true rfl ⟨Nat.not_lt.1 h, hlong⟩

/-- A table of the wrong length is refused for its length. -/
theorem Description.table_of_check {fault : FormatFault}
    (h : layout.check header.alphabetSize header.stateCount flat.size = .error fault) :
    table layout header flat = .error fault := by
  rw [Layout.check] at h
  split at h
  · next hnone =>
      cases h
      exact table_of_overflow hnone
  · next m hsome =>
      split at h
      · next hshort =>
          cases h
          exact table_of_short hsome hshort
      · split at h
        · next hlong =>
            cases h
            cases hlong.1
            exact table_of_long hsome hlong.2
        · cases h

namespace Description

section Length

variable (needed : layout.needed? k n = some m) (enough : m ≤ flat.size)

/-- Whether the layout has the triple of a cell name the cell, and it names another. -/
def strange (cell : Fin (n * k)) : Bool :=
  decide (layout = .stateMajor) && (entry flat needed enough cell).1 != (cell.1 / k, cell.1 % k)

theorem getElem?_entry (cell : Fin (n * k)) :
    flat[3 * layout.triple k n (cell / k) (cell % k)]? =
        some (entry flat needed enough cell).1.1 ∧
      flat[3 * layout.triple k n (cell / k) (cell % k) + 1]? =
        some (entry flat needed enough cell).1.2 ∧
      flat[3 * layout.triple k n (cell / k) (cell % k) + 2]? =
        some (entry flat needed enough cell).2 := by
  have h := getElem?_triple needed enough (div_lt_of_cell cell.2) (mod_lt_of_cell cell.2)
  simpa only [Nat.div_add_mod', Fin.eta] using h

end Length

/-- What is left to do for a table of the right length. -/
theorem table_of_length
    (needed : layout.needed? header.alphabetSize header.stateCount = some m)
    (enough : m ≤ flat.size) (hlong : ¬ (layout = .stateMajor ∧ m < flat.size)) :
    table layout header flat =
      match (List.finRange (header.stateCount * header.alphabetSize)).find?
        (strange needed enough) with
      | some cell => .error (.mislabelled cell
          (cell / header.alphabetSize, cell % header.alphabetSize)
          (entry flat needed enough cell).1)
      | none => (((Builder.blank header.alphabetSize header.stateCount).tellAll
          (.initial header.initial :: header.finals.map .final)).tellAll
            ((List.finRange (header.stateCount * header.alphabetSize)).map fun cell =>
              .transition (cell.1 / header.alphabetSize) (cell.1 % header.alphabetSize)
                (entry flat needed enough cell).2)).build := by
  rw [table_of_needed needed, dif_neg (Nat.not_lt.2 enough), if_neg hlong,
    Builder.tellAll, Builder.tellAll, ← List.foldl_append]
  rfl

end Description

theorem Layout.fits_of_needed? (needed : layout.needed? k n = some m) (hk : 0 < k) : Fits k n := by
  have hcells : n * k < limit := by
    cases layout with
    | stateMajor => exact Nat.lt_of_le_of_lt (by omega) (needed?_stateMajor_eq_some.1 needed).1
    | legacy => exact (needed?_legacy_eq_some.1 needed).1
  exact ⟨hcells, Nat.lt_of_le_of_lt (Nat.le_mul_of_pos_right n hk) hcells⟩

theorem Layout.lt_limit_of_needed? (needed : layout.needed? k n = some m) : m < limit := by
  cases layout with
  | stateMajor =>
      obtain ⟨hlt, rfl⟩ := needed?_stateMajor_eq_some.1 needed
      exact hlt
  | legacy =>
      obtain ⟨_, ⟨_, rfl⟩ | ⟨_, hlt, rfl⟩⟩ := needed?_legacy_eq_some.1 needed
      · decide
      · exact hlt

namespace Machine

/-- How many numbers a table takes, unless there are too many. That a product or the sum is no word
is noticed here; only a difference may trap. -/
def needed (layout : Layout) (k n : Nat) : Option (Option Nat) :=
  match word? (n * k) with
  | none => some none
  | some cells =>
    match layout with
    | .stateMajor => some (word? (3 * cells))
    | .legacy =>
      if cells = 0 then some (some 0)
      else do
        let last ← less? n 1
        return (cell? last n k).bind fun stop => word? (3 * stop)

theorem needed_eq (layout : Layout) (k n : Nat) :
    needed layout k n = some (layout.needed? k n) := by
  simp only [needed, Layout.needed?]
  by_cases hcells : n * k < limit
  · rw [word?_of_lt hcells, if_neg (Nat.not_le.2 hcells)]
    cases layout with
    | stateMajor => rfl
    | legacy =>
        by_cases hzero : n * k = 0
        · simp only [hzero, ↓reduceIte]
          rfl
        · have hn : 1 ≤ n := Nat.pos_of_mul_pos_right (Nat.pos_of_ne_zero hzero)
          simp only [hzero, ↓reduceIte, less?, if_pos hn]
          refine congrArg some ?_
          rw [cell?_eq]
          by_cases hstop : (n - 1) * n + k < limit
          · rw [word?_of_lt hstop]
            rfl
          · rw [word?_of_le (Nat.not_lt.1 hstop), if_neg (by omega)]
            rfl
  · rw [word?_of_le (Nat.not_lt.1 hcells), if_pos (Nat.not_lt.1 hcells)]

/-- What is wrong with the number of numbers that a table has. -/
def check (layout : Layout) (k n found : Nat) : Option (Except FormatFault Unit) := do
  match ← needed layout k n with
  | none => return .error (.dimensionOverflow n k)
  | some m =>
    if found < m then return .error (.truncated m found)
    else if layout = .stateMajor ∧ m < found then return .error (.trailing m found)
    else return .ok ()

theorem check_eq (layout : Layout) (k n found : Nat) :
    check layout k n found = some (layout.check k n found) := by
  rw [check, needed_eq, Layout.check]
  show (match layout.needed? k n with | none => _ | some m => _) = _
  cases layout.needed? k n with
  | none => rfl
  | some m =>
      dsimp only
      split
      · rfl
      · split
        · rfl
        · rfl

/-! ## The places of a cell -/

/-- The index of the triple that holds a cell. -/
def triple? (layout : Layout) (k n s a : Nat) : Option Nat :=
  match layout with
  | .stateMajor => cell? s k a
  | .legacy => cell? s n a

theorem triple?_eq (layout : Layout) (k n s a : Nat) :
    triple? layout k n s a = word? (layout.triple k n s a) := by
  cases layout with
  | stateMajor => exact cell?_eq s k a
  | legacy => exact cell?_eq s n a

theorem places_of_needed? (needed : layout.needed? k n = some m) {s a : Nat} (hs : s < n)
    (ha : a < k) : triple? layout k n s a = some (layout.triple k n s a) ∧
      ∀ i < 3, word? (3 * layout.triple k n s a + i) = some (3 * layout.triple k n s a + i) := by
  have hlt := Layout.triple_lt needed hs ha
  have hlimit := Layout.lt_limit_of_needed? needed
  refine ⟨?_, fun i hi => word?_of_lt (by omega)⟩
  rw [triple?_eq, word?_of_lt (by omega)]

/-! ## The cells of a table -/

/-- The label of the triple at a place, if the layout has it name its cell and it names another. -/
def strange? (layout : Layout) (flat : Array Nat) (base : Nat) (cell : Nat × Nat) :
    Option (Option (Nat × Nat)) :=
  match layout with
  | .stateMajor => do
    let row ← flat[base]?
    let next ← word? (base + 1)
    let column ← flat[next]?
    return if (row, column) = cell then none else some (row, column)
  | .legacy => return none

/-- The builder after the cell of `s` and `a` has been read. -/
def readCell (layout : Layout) (k n : Nat) (flat : Array Nat) (b : Builder) (s a : Nat) :
    Option (Except FormatFault Builder) := do
  let triple ← triple? layout k n s a
  let base ← word? (3 * triple)
  match ← strange? layout flat base (s, a) with
  | some label => return .error (.mislabelled triple (s, a) label)
  | none =>
    let last ← word? (base + 2)
    let target ← flat[last]?
    let filled ← b.apply (.transition s a target)
    return .ok filled

/-- The builder after several cells have been read. -/
def readCells (layout : Layout) (k n : Nat) (flat : Array Nat) :
    List (Nat × Nat) → Builder → Option (Except FormatFault Builder)
  | [], b => return .ok b
  | (s, a) :: cells, b => do
    match ← readCell layout k n flat b s a with
    | .error fault => return .error fault
    | .ok filled => readCells layout k n flat cells filled

/-- The cells of a table, state by state and symbol by symbol. -/
def cells (k n : Nat) : List (Nat × Nat) :=
  (List.range n).flatMap fun s => (List.range k).map fun a => (s, a)

/-- The cells stand in the order of their places. -/
theorem cells_eq_range (k n : Nat) :
    cells k n = (List.range (n * k)).map fun place => (place / k, place % k) := by
  rw [cells]
  induction n with
  | zero => rw [List.range_zero, List.flatMap_nil, Nat.zero_mul, List.range_zero, List.map_nil]
  | succ n ih =>
      have hrow : (List.range k).map (fun a => (n, a)) =
          (List.range k).map fun a => ((n * k + a) / k, (n * k + a) % k) :=
        List.map_congr_left fun a ha => by
          rw [cell_div (List.mem_range.1 ha), cell_mod (List.mem_range.1 ha)]
      rw [List.range_succ, List.flatMap_append, ih, List.flatMap_singleton, hrow, Nat.succ_mul,
        List.range_add, List.map_append, List.map_map]
      rfl

theorem cells_eq (k n : Nat) :
    cells k n = (List.finRange (n * k)).map fun cell => (cell.1 / k, cell.1 % k) := by
  rw [cells_eq_range, ← List.map_coe_finRange_eq_range, List.map_map]
  rfl

section Cells

variable (needed : layout.needed? k n = some m) (enough : m ≤ flat.size)

theorem strange?_eq (cell : Fin (n * k)) :
    strange? layout flat (3 * layout.triple k n (cell / k) (cell % k)) (cell.1 / k, cell.1 % k) =
      some (if Description.strange needed enough cell then
        some (Description.entry flat needed enough cell).1 else none) := by
  obtain ⟨hrow, hcolumn, _⟩ := Description.getElem?_entry needed enough cell
  obtain ⟨_, hplaces⟩ :=
    places_of_needed? needed (div_lt_of_cell cell.2) (mod_lt_of_cell cell.2)
  have hnext := hplaces 1 (by decide)
  cases layout with
  | legacy => rfl
  | stateMajor =>
      simp only [strange?, hrow, hnext, Option.bind_eq_bind, Option.bind_some, hcolumn,
        Description.strange, decide_true, Bool.true_and, bne_iff_ne, ite_not]
      rfl

/-- What reading a cell comes to. -/
theorem readCell_eq {b : Builder} (hk : b.alphabetSize = k) (hn : b.stateCount = n)
    (cell : Fin (n * k)) : readCell layout k n flat b (cell / k) (cell % k) =
      some (if Description.strange needed enough cell then
          .error (.mislabelled cell (cell / k, cell % k)
            (Description.entry flat needed enough cell).1)
        else .ok (b.tell (.transition (cell / k) (cell % k)
          (Description.entry flat needed enough cell).2))) := by
  have ha := mod_lt_of_cell cell.2
  obtain ⟨htriple, hplaces⟩ := places_of_needed? needed (div_lt_of_cell cell.2) ha
  have hbase := hplaces 0 (by decide)
  have hlast := hplaces 2 (by decide)
  rw [Nat.add_zero] at hbase
  obtain ⟨_, _, htarget⟩ := Description.getElem?_entry needed enough cell
  have fits := Layout.fits_of_needed? needed (Nat.zero_lt_of_lt ha)
  simp only [readCell, htriple, hbase, hlast, htarget, Option.bind_eq_bind, Option.bind_some,
    strange?_eq needed enough cell, Builder.apply_eq, hk, hn, BuildStep.beyond_of_fits fits]
  cases hstrange : Description.strange needed enough cell with
  | false => rfl
  | true =>
      -- Only a layout whose triples stand in the order of their cells looks at what they name.
      have hlayout : layout = .stateMajor := of_decide_eq_true (Bool.and_eq_true_iff.1 hstrange).1
      subst hlayout
      rw [Layout.triple, Nat.div_add_mod']
      rfl

theorem readCells_eq {b : Builder} (hk : b.alphabetSize = k) (hn : b.stateCount = n)
    (cells : List (Fin (n * k))) :
    readCells layout k n flat (cells.map fun cell => (cell.1 / k, cell.1 % k)) b =
      some (match cells.find? (Description.strange needed enough) with
        | some cell => .error (.mislabelled cell (cell / k, cell % k)
            (Description.entry flat needed enough cell).1)
        | none => .ok (b.tellAll (cells.map fun cell => .transition (cell.1 / k) (cell.1 % k)
            (Description.entry flat needed enough cell).2))) := by
  induction cells generalizing b with
  | nil => rfl
  | cons cell cells ih =>
      rw [List.map_cons, readCells, readCell_eq needed enough hk hn, List.find?_cons]
      cases Description.strange needed enough cell with
      | true => rfl
      | false =>
          obtain ⟨hk', hn'⟩ := b.tell_dimensions (.transition (cell / k) (cell % k)
            (Description.entry flat needed enough cell).2)
          exact ih (hk'.trans hk) (hn'.trans hn)

end Cells

/-! ## The automaton of a table -/

/-- The automaton of a header and the numbers after it. Whether there is room for the table beside
its numbers is not in question here. -/
def table (layout : Layout) (header : Description.Header) (flat : Array Nat) :
    Option (Except FormatFault Automaton) := do
  let k := header.alphabetSize
  let n := header.stateCount
  match ← check layout k n flat.size with
  | .error fault => return .error fault
  | .ok () =>
    let b ← (Builder.blank k n).run (.initial header.initial :: header.finals.map .final)
    match ← readCells layout k n flat (cells k n) b with
    | .error fault => return .error fault
    | .ok b => return b.build

/-- Where nothing but states have been told to a builder, nothing has trapped. -/
theorem run_states (b : Builder) (initial : Nat) (finals : List Nat) :
    b.run (.initial initial :: finals.map .final) =
      some (b.tellAll (.initial initial :: finals.map .final)) := by
  rw [Builder.run_eq, if_neg]
  simp [BuildStep.beyond]

theorem table_eq (layout : Layout) (header : Description.Header) (flat : Array Nat) :
    table layout header flat = some (Description.table layout header flat) := by
  rw [table, check_eq]
  cases hcheck : layout.check header.alphabetSize header.stateCount flat.size with
  | error fault =>
      rw [Description.table_of_check hcheck]
      rfl
  | ok _ =>
      obtain ⟨m, needed, enough, hlong⟩ := Layout.check_eq_ok_iff.1 hcheck
      have hran := Builder.ran header.alphabetSize header.stateCount
        (.initial header.initial :: header.finals.map .final)
      simp only [Option.bind_eq_bind, Option.bind_some, run_states, cells_eq,
        readCells_eq needed enough hran.alphabetSize hran.stateCount,
        Description.table_of_length needed enough hlong]
      cases (List.finRange _).find? (Description.strange needed enough) with
      | some _ => rfl
      | none => rfl

/-! ## Tables that are long enough -/

/-- Counting traps at no table. If nothing is wrong with the count, then every place that is worked
out for a cell is a word, and the last one is within the table. -/
theorem reads_covered (layout : Layout) (k n found : Nat) :
    check layout k n found = some (layout.check k n found) ∧
    (check layout k n found = some (.ok ()) → ∀ s < n, ∀ a < k,
      triple? layout k n s a = some (layout.triple k n s a) ∧
      word? (3 * layout.triple k n s a) = some (3 * layout.triple k n s a) ∧
      word? (3 * layout.triple k n s a + 2) = some (3 * layout.triple k n s a + 2) ∧
      3 * layout.triple k n s a + 2 < found) ∧
    ∀ header flat, table layout header flat = some (Description.table layout header flat) := by
  refine ⟨check_eq layout k n found, fun h s hs a ha => ?_, table_eq layout⟩
  rw [check_eq, Option.some.injEq] at h
  obtain ⟨m, needed, enough, _⟩ := Layout.check_eq_ok_iff.1 h
  obtain ⟨htriple, hplaces⟩ := places_of_needed? needed hs ha
  exact ⟨htriple, hplaces 0 (by decide), hplaces 2 (by decide),
    Nat.lt_of_lt_of_le (Layout.triple_lt needed hs ha) enough⟩

/-- Two states and one symbol, so that the second row starts in the third triple. -/
theorem narrow_reads_covered :
    check .legacy 1 2 9 = some (.ok ()) ∧ 1 < 2 ∧ 0 < 1 ∧
      triple? .legacy 1 2 1 0 = some 2 ∧ 3 * 2 + 2 < 9 := by
  have hcheck : check .legacy 1 2 9 = some (.ok ()) := rfl
  obtain ⟨htriple, _, _, hlt⟩ :=
    (reads_covered .legacy 1 2 9).2.1 hcheck 1 (by decide) 0 (by decide)
  exact ⟨hcheck, by decide, by decide, htriple, hlt⟩

end Machine

end FiniteReach
