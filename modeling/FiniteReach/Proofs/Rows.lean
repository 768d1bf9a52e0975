import FiniteReach.Proofs.Blame
import FiniteReach.Proofs.Composition

/-!
# Records that are refused

A record is refused for its first row of the wrong length, whatever else is wrong with it, and
otherwise for a state that is out of range; nothing can be missing from it. An accepted record is
that of its automaton, its final states in order and each once (`automaton?_of_fits`). But the table
is allocated before the rows are looked at, and the machine traps at one that is too large.
-/

namespace FiniteReach.Record

variable {r : Record} {A : Automaton} {fault : FormatFault}

/-! ## The steps of a record -/

/-- The steps of a record say what the record says. -/
theorem ofSteps_steps (r : Record) :
    Draft.ofSteps r.alphabetSize r.rows.length r.steps = Draft.ofRecord r :=
  Draft.ofSteps_of_unique (fun _ => exists_of_mem_transitions) fun _ _ _ =>
    mem_transitions.trans Option.bind_eq_some_iff.symm

theorem inRange_steps (hrows : ∀ row ∈ r.rows, row.length = r.alphabetSize) (s a t : Nat)
    (hm : .transition s a t ∈ r.steps) : s < r.rows.length ∧ a < r.alphabetSize := by
  have hentry : RowEntry r.rows s a t := mem_transitions.1 (by simpa [steps] using hm)
  obtain ⟨row, hrow, ht⟩ := hentry
  obtain ⟨hs, rfl⟩ := List.getElem?_eq_some_iff.1 hrow
  obtain ⟨ha, _⟩ := List.getElem?_eq_some_iff.1 ht
  exact ⟨hs, hrows _ (List.getElem_mem hs) ▸ ha⟩

/-! ## What is wrong with a record -/

/-- What is reported of a record. -/
inductive FirstFault (r : Record) : FormatFault → Prop where
  | rowLength {s : Nat} {row : List Nat} :
      FirstAt (fun row => row.length ≠ r.alphabetSize) r.rows s row →
      FirstFault r (.rowLength s r.alphabetSize row.length)
  | draft {fault : FormatFault} : (∀ row ∈ r.rows, row.length = r.alphabetSize) →
      (Draft.ofRecord r).FirstFault fault → FirstFault r fault

theorem automaton?_of_firstRow (hallocates : r.Allocates) {s : Nat} {row : List Nat}
    (h : FirstAt (fun row => row.length ≠ r.alphabetSize) r.rows s row) :
    r.automaton? = .error (.fault (.rowLength s r.alphabetSize row.length)) := by
  rw [automaton?, if_pos hallocates, h.zipIdx.find?_eq fun entry => bne_iff_ne]

theorem exists_firstFault_or_automaton? (fits : Fits r.alphabetSize r.rows.length) :
    (∃ fault, r.FirstFault fault) ∨ ∃ A, r.automaton? = .ok A := by
  rcases FirstAt.exists_or_forall_not (fun row => row.length ≠ r.alphabetSize) r.rows with
    ⟨s, row, h⟩ | hrows
  · exact .inl ⟨_, .rowLength h⟩
  · simp only [not_not] at hrows
    simp only [automaton?_of_rows hrows, mapError_eq_ok]
    refine (BuildStep.exists_draftFault_or_ofSteps fits (inRange_steps hrows)).imp_left ?_
    rintro ⟨fault, h⟩
    exact ⟨fault, .draft hrows (r.ofSteps_steps ▸ h)⟩

theorem automaton?_of_firstFault (fits : Fits r.alphabetSize r.rows.length)
    (hallocates : r.Allocates) (h : r.FirstFault fault) : r.automaton? = .error (.fault fault) := by
  cases h with
  | rowLength h => exact automaton?_of_firstRow hallocates h
  | draft hrows h =>
      rw [← r.ofSteps_steps] at h
      rw [automaton?_of_rows hrows,
        BuildStep.ofSteps_of_firstFault (.draft fits (inRange_steps hrows) h)]
      rfl

/-- All that is wrong with numbers in rows is their rows' length or a state out of range. -/
theorem FirstFault.cases_fault (h : r.FirstFault fault) :
    (∃ s found, fault = .rowLength s r.alphabetSize found) ∨
      ∃ role s, fault = .stateOutOfRange role s r.rows.length := by
  cases h with
  | rowLength _ => exact .inl ⟨_, _, rfl⟩
  | draft hrows h =>
      refine .inr (h.exists_state fun s hs a ha => ?_)
      have hs : s < r.rows.length := hs
      have ha : a < r.rows[s].length := hrows _ (List.getElem_mem hs) ▸ ha
      exact ⟨r.rows[s][a], by simp [Draft.ofRecord, hs, ha]⟩

/-! ## Accepted records -/

theorem row?_of_automaton? (h : r.automaton? = .ok A) {s : Nat} (hs : s < r.rows.length) :
    A.row? s = some r.rows[s] := by
  obtain ⟨_, _, _, hrows⟩ := automaton?_eq_ok.1 h
  have hs' : s < A.stateCount := by rwa [← Automaton.length_rows, hrows]
  rw [A.row?_eq ⟨s, hs'⟩]
  simp only [← hrows, Automaton.rows, List.getElem_map, List.getElem_finRange]
  rfl

theorem record_of_automaton? (h : r.automaton? = .ok A) :
    A.record = ⟨r.alphabetSize, r.initial, ascending r.finals, r.rows⟩ := by
  obtain ⟨hk, hq, hfs, hrows⟩ := automaton?_eq_ok.1 h
  rw [Automaton.record, hk, hq, Automaton.finals_eq_ascending_iff.2 hfs, hrows]

/-! ## Tables that cannot be allocated -/

theorem not_allocates_iff (fits : Fits r.alphabetSize r.rows.length) : ¬ r.Allocates ↔
    cellLimit ≤ r.rows.length * r.alphabetSize ∧ ∃ row ∈ r.rows, row.length ≠ r.alphabetSize := by
  rw [Allocates, FiniteReach.Allocates, not_or, Classical.not_imp, Nat.not_lt]
  simp only [fits, true_and, not_forall, exists_prop, ne_eq]

/-- Rows of the right length have an entry for each cell. -/
theorem length_flatten_rows (hrows : ∀ row ∈ r.rows, row.length = r.alphabetSize) :
    r.rows.flatten.length = r.rows.length * r.alphabetSize := by
  rw [List.length_flatten, List.map_congr_left hrows, List.map_const', List.sum_replicate_nat]

/-- Of a record with fewer entries than that, no table of `cellLimit` cells can be allocated. -/
theorem not_allocates_iff_of_held (fits : Fits r.alphabetSize r.rows.length)
    (held : r.rows.flatten.length < cellLimit) :
    ¬ r.Allocates ↔ cellLimit ≤ r.rows.length * r.alphabetSize := by
  rw [not_allocates_iff fits]
  refine and_iff_left_of_imp fun hle => ?_
  by_contra hrows
  simp only [ne_eq, not_exists, not_and, not_not] at hrows
  exact Nat.not_lt.2 hle (length_flatten_rows hrows ▸ held)

/-! ## All records -/

/-- What is reported of a record that fits, and what an accepted one turns into. Nothing is reported
if the table cannot be allocated, and then a row of the wrong length is not even looked at. -/
theorem automaton?_of_fits {r : Record} (fits : Fits r.alphabetSize r.rows.length) :
    (r.automaton? = .error .trap ↔ cellLimit ≤ r.rows.length * r.alphabetSize ∧
      ∃ row ∈ r.rows, row.length ≠ r.alphabetSize) ∧
    (r.rows.flatten.length < cellLimit →
      (r.automaton? = .error .trap ↔ cellLimit ≤ r.rows.length * r.alphabetSize)) ∧
    (r.automaton? ≠ .error .trap →
      ∀ fault, r.automaton? = .error (.fault fault) ↔ r.FirstFault fault) ∧
    ((∃ A, r.automaton? = .ok A) ↔ ∀ fault, ¬ r.FirstFault fault) ∧
    (∀ A, r.automaton? = .ok A →
      (∀ s, (hs : s < r.rows.length) → A.row? s = some r.rows[s]) ∧
        ∃ finals, finals.Pairwise (· < ·) ∧ (∀ f, f ∈ finals ↔ f ∈ r.finals) ∧
          A.record = ⟨r.alphabetSize, r.initial, finals, r.rows⟩) ∧
    (∀ s a, r.automaton? ≠ .error (.fault (.missingTransition s a))) ∧
    (∀ a k, r.automaton? ≠ .error (.fault (.symbolOutOfRange a k))) ∧
    (∀ n k, r.automaton? ≠ .error (.fault (.dimensionOverflow n k))) ∧
    ∀ A : Automaton, A.record.automaton? = .ok A := by
  have hallocates (h : r.automaton? ≠ .error .trap) : r.Allocates :=
    not_not.1 fun hnot => h (automaton?_eq_trap_iff.2 hnot)
  have hfault (h : r.automaton? ≠ .error .trap) (fault : FormatFault) :
      r.automaton? = .error (.fault fault) ↔ r.FirstFault fault := by
    refine ⟨fun herror => ?_, automaton?_of_firstFault fits (hallocates h)⟩
    obtain ⟨fault', hfault'⟩ := (exists_firstFault_or_automaton? fits).resolve_right
      fun ⟨A, hA⟩ => nomatch hA.symm.trans herror
    cases herror.symm.trans (automaton?_of_firstFault fits (hallocates h) hfault')
    exact hfault'
  have hnever (fault : FormatFault) (hrow : ∀ s k found, fault ≠ .rowLength s k found)
      (hstate : ∀ role s n, fault ≠ .stateOutOfRange role s n) :
      r.automaton? ≠ .error (.fault fault) := by
    intro h
    have hreported := (hfault (fun htrap => nomatch htrap.symm.trans h) fault).1 h
    rcases hreported.cases_fault with ⟨_, _, he⟩ | ⟨_, _, he⟩
    · exact hrow _ _ _ he
    · exact hstate _ _ _ he
  refine ⟨automaton?_eq_trap_iff.trans (not_allocates_iff fits), fun held =>
    automaton?_eq_trap_iff.trans (not_allocates_iff_of_held fits held), hfault,
    ⟨?_, fun h => ?_⟩, fun A hA => ⟨fun s hs => row?_of_automaton? hA hs, ?_⟩,
    fun _ _ => hnever _ nofun nofun, fun _ _ => hnever _ nofun nofun,
    fun _ _ => hnever _ nofun nofun, Automaton.automaton?_record⟩
  · rintro ⟨A, hA⟩ fault h
    cases hA.symm.trans ((hfault (fun htrap => nomatch htrap.symm.trans hA) fault).2 h)
  · exact (exists_firstFault_or_automaton? fits).resolve_left fun ⟨fault, hf⟩ => h fault hf
  · exact ⟨_, ascending_pairwise r.finals, fun _ => mem_ascending, record_of_automaton? hA⟩

/-- Of two records in which nearly everything is wrong, one has a row that is too short. -/
theorem refused_of_fits :
    Fits 2 2 ∧
      automaton? ⟨2, 9, [7], [[0, 5], [1]]⟩ = .error (.fault (.rowLength 1 2 1)) ∧
      automaton? ⟨2, 1, [0, 3, 2], [[0, 5], [1, 1]]⟩ =
        .error (.fault (.stateOutOfRange .final 3 2)) := by
  have fits : Fits 2 2 := by decide
  have hrow : FirstFault ⟨2, 9, [7], [[0, 5], [1]]⟩ (.rowLength 1 2 [1].length) :=
    .rowLength ⟨rfl, by decide, by decide⟩
  have hfinal : FirstAt (2 ≤ ·) [0, 3, 2] 1 3 := ⟨rfl, by decide, by decide⟩
  obtain ⟨_, hshort, hrows, _⟩ := automaton?_of_fits (r := ⟨2, 9, [7], [[0, 5], [1]]⟩) fits
  obtain ⟨_, hfull, hstates, _⟩ := automaton?_of_fits (r := ⟨2, 1, [0, 3, 2], [[0, 5], [1, 1]]⟩) fits
  refine ⟨fits, (hrows (fun htrap => ?_) _).2 hrow,
    (hstates (fun htrap => ?_) _).2 (.draft (by decide) (.final (by decide) hfinal))⟩
  · exact absurd ((hshort (by decide)).1 htrap) (by decide)
  · exact absurd ((hfull (by decide)).1 htrap) (by decide)

/-- One row, which is too short for the alphabet, and a table that cannot be allocated. -/
theorem unallocated_trap :
    Fits 1152921504606846976 1 ∧
      FirstFault ⟨1152921504606846976, 0, [], [[]]⟩ (.rowLength 0 1152921504606846976 0) ∧
      automaton? ⟨1152921504606846976, 0, [], [[]]⟩ = .error .trap := by
  have hshort : FirstFault ⟨1152921504606846976, 0, [], [[]]⟩
      (.rowLength 0 1152921504606846976 [].length) := .rowLength ⟨rfl, by simp, by decide⟩
  exact ⟨by decide, hshort, automaton?_eq_trap_iff.2 (by decide)⟩

end FiniteReach.Record
