import FiniteReach.Automaton.Record
import FiniteReach.Collect
import FiniteReach.Proofs.Builder

/-!
# Which automaton a record describes

A record describes an automaton exactly if it has its rows, its initial state and, in any order and
number, its final states.
-/

namespace FiniteReach

/-- `t` stands in the column `a` of the row `s`. -/
def RowEntry (rows : List (List Nat)) (s a t : Nat) : Prop :=
  ∃ row, rows[s]? = some row ∧ row[a]? = some t

theorem RowEntry.unique {rows : List (List Nat)} {s a t t' : Nat} (h : RowEntry rows s a t)
    (h' : RowEntry rows s a t') : t = t' := by
  obtain ⟨row, hr, ht⟩ := h
  obtain ⟨row', hr', ht'⟩ := h'
  cases hr.symm.trans hr'
  exact Option.some.inj (ht.symm.trans ht')

/-- Two tables of the same shape with the same entries are equal. -/
theorem rows_eq_of_entries {k : Nat} {rows rows' : List (List Nat)}
    (hlength : rows.length = rows'.length) (hrows : ∀ row ∈ rows, row.length = k)
    (hrows' : ∀ row ∈ rows', row.length = k)
    (h : ∀ s a t, RowEntry rows s a t → RowEntry rows' s a t) : rows = rows' := by
  refine List.ext_getElem hlength fun s hs hs' => ?_
  have hk := hrows _ (List.getElem_mem hs)
  have hk' := hrows' _ (List.getElem_mem hs')
  refine List.ext_getElem (hk.trans hk'.symm) fun a ha ha' => ?_
  have hentry : RowEntry rows s a rows[s][a] :=
    ⟨_, List.getElem?_eq_getElem hs, List.getElem?_eq_getElem ha⟩
  exact (h _ _ _ hentry).unique ⟨_, List.getElem?_eq_getElem hs', List.getElem?_eq_getElem ha'⟩

namespace Automaton

variable {A : Automaton}

theorem length_rows : A.rows.length = A.stateCount := by
  simp [rows]

theorem length_of_mem_rows {row : List Nat} (h : row ∈ A.rows) : row.length = A.alphabetSize := by
  rw [rows, List.mem_map] at h
  obtain ⟨s, _, rfl⟩ := h
  simp [Automaton.row]

theorem entry_rows {s a t : Nat} : RowEntry A.rows s a t ↔ (s, a, t) ∈ A.transitions := by
  rw [mem_transitions]
  constructor
  · rintro ⟨row, hr, ht⟩
    obtain ⟨hs, rfl⟩ := List.getElem?_eq_some_iff.1 hr
    obtain ⟨ha, rfl⟩ := List.getElem?_eq_some_iff.1 ht
    have hs' := length_rows (A := A) ▸ hs
    have ha' := length_of_mem_rows (List.getElem_mem hs) ▸ ha
    exact ⟨hs', ha', by simp [rows, Automaton.row]⟩
  · rintro ⟨hs, ha, rfl⟩
    exact ⟨(A.row ⟨s, hs⟩).map Fin.val, by simp [rows, hs], by simp [Automaton.row, ha]⟩

end Automaton

namespace Record

variable {r : Record} {A : Automaton}

theorem mem_transitions {s a t : Nat} : .transition s a t ∈ r.transitions ↔ RowEntry r.rows s a t := by
  simp only [transitions, List.mem_flatMap, List.mem_map, Prod.exists,
    List.mem_zipIdx_iff_getElem?]
  constructor
  · rintro ⟨row, s', hr, t', a', ht, he⟩
    cases he
    exact ⟨row, hr, ht⟩
  · rintro ⟨row, hr, ht⟩
    exact ⟨row, s, hr, t, a, ht, rfl⟩

theorem exists_of_mem_transitions {step : BuildStep} (h : step ∈ r.transitions) :
    ∃ s a t, step = .transition s a t := by
  simp only [transitions, List.mem_flatMap, List.mem_map] at h
  obtain ⟨_, _, _, _, rfl⟩ := h
  exact ⟨_, _, _, rfl⟩

/-- Over rows of the right length, having the entries of `A` is having its rows. -/
theorem rows_eq_iff (hk : A.alphabetSize = r.alphabetSize) (hn : A.stateCount = r.rows.length)
    (hrows : ∀ row ∈ r.rows, row.length = r.alphabetSize) :
    (∀ s a t, .transition s a t ∈ r.transitions ↔ (s, a, t) ∈ A.transitions) ↔ A.rows = r.rows := by
  constructor
  · intro h
    refine rows_eq_of_entries (Automaton.length_rows.trans hn)
      (fun row hm => (Automaton.length_of_mem_rows hm).trans hk) hrows fun s a t he => ?_
    exact mem_transitions.1 ((h s a t).2 (Automaton.entry_rows.1 he))
  · intro h s a t
    rw [mem_transitions, ← h, Automaton.entry_rows]

/-- The table of a record can be allocated if its rows are of the right length. -/
theorem automaton?_of_rows (hrows : ∀ row ∈ r.rows, row.length = r.alphabetSize) :
    r.automaton? =
      (Automaton.ofSteps r.alphabetSize r.rows.length r.steps).mapError .fault := by
  rw [automaton?, if_pos (.inr hrows), List.find?_eq_none.2]
  intro entry hm
  simpa using hrows _ (List.fst_mem_of_mem_zipIdx hm)

theorem automaton?_eq_trap_iff : r.automaton? = .error .trap ↔ ¬ r.Allocates := by
  rw [automaton?]
  split
  · next h =>
      refine iff_of_false (fun htrap => ?_) (not_not_intro h)
      split at htrap
      · cases htrap
      · obtain ⟨fault, _, hfault⟩ := mapError_eq_error.1 htrap
        cases hfault
  · next h => exact iff_of_true rfl h

theorem length_of_automaton? (h : r.automaton? = .ok A) :
    ∀ row ∈ r.rows, row.length = r.alphabetSize := by
  rw [automaton?] at h
  split at h
  · split at h
    · cases h
    · next hnone =>
        intro row hm
        obtain ⟨s, hs⟩ := List.mem_iff_getElem?.1 hm
        have hf := List.find?_eq_none.1 hnone (row, s) (List.mem_zipIdx_iff_getElem?.2 hs)
        simpa using hf
  · cases h

theorem ofSteps_eq_ok_of_rows (hrows : ∀ row ∈ r.rows, row.length = r.alphabetSize) :
    Automaton.ofSteps r.alphabetSize r.rows.length r.steps = .ok A ↔
      A.alphabetSize = r.alphabetSize ∧ A.initial = r.initial ∧
        (∀ f, f ∈ A.finals ↔ f ∈ r.finals) ∧ A.rows = r.rows := by
  rw [steps, Automaton.ofSteps_eq_ok_of_unique]
  · constructor
    · rintro ⟨hk, hn, hq, hfs, hts⟩
      exact ⟨hk, hq, hfs, (rows_eq_iff hk hn hrows).1 hts⟩
    · rintro ⟨hk, hq, hfs, h⟩
      have hn : A.stateCount = r.rows.length := by rw [← h, Automaton.length_rows]
      exact ⟨hk, hn, hq, hfs, (rows_eq_iff hk hn hrows).2 h⟩
  · exact fun step => exists_of_mem_transitions
  · intro s a t t' h h'
    exact (mem_transitions.1 h).unique (mem_transitions.1 h')

theorem automaton?_eq_ok : r.automaton? = .ok A ↔
    A.alphabetSize = r.alphabetSize ∧ A.initial = r.initial ∧
      (∀ f, f ∈ A.finals ↔ f ∈ r.finals) ∧ A.rows = r.rows := by
  constructor
  · intro h
    have hrows := length_of_automaton? h
    rw [automaton?_of_rows hrows, mapError_eq_ok] at h
    exact (ofSteps_eq_ok_of_rows hrows).1 h
  · rintro ⟨hk, hq, hfs, h⟩
    have hrows : ∀ row ∈ r.rows, row.length = r.alphabetSize := fun row hm =>
      (Automaton.length_of_mem_rows (h ▸ hm)).trans hk
    rw [automaton?_of_rows hrows, mapError_eq_ok]
    exact (ofSteps_eq_ok_of_rows hrows).2 ⟨hk, hq, hfs, h⟩

end Record

/-! ## Numbers in range -/

/-- Every number of a record and the length of every list in it can be stored. -/
structure Record.InRange (r : Record) : Prop where
  alphabetSize : r.alphabetSize < limit
  initial : r.initial < limit
  finals : r.finals.length < limit ∧ ∀ f ∈ r.finals, f < limit
  rows : r.rows.length < limit ∧ ∀ row ∈ r.rows, row.length < limit ∧ ∀ t ∈ row, t < limit

namespace Automaton

theorem alphabetSize_lt (A : Automaton) : A.alphabetSize < limit :=
  Nat.lt_of_le_of_lt (Nat.le_mul_of_pos_left _ (Nat.zero_lt_of_lt A.initial_lt)) A.size_lt

theorem length_finals_lt (A : Automaton) : A.finals.length < limit := by
  have hnodup : A.finals.Nodup := A.finals_ascending.imp Nat.ne_of_lt
  have hsub : A.finals ⊆ List.range A.stateCount := fun f hf =>
    List.mem_range.2 (A.finals_lt f hf)
  have hle := List.Nodup.length_le_of_subset hnodup hsub
  rw [List.length_range] at hle
  exact Nat.lt_of_le_of_lt hle A.stateCount_lt

theorem inRange_record (A : Automaton) : A.record.InRange where
  alphabetSize := A.alphabetSize_lt
  initial := Nat.lt_trans A.initial_lt A.stateCount_lt
  finals := ⟨A.length_finals_lt, fun f hf => Nat.lt_trans (A.finals_lt f hf) A.stateCount_lt⟩
  rows := by
    refine ⟨length_rows.trans_lt A.stateCount_lt, fun row hrow => ⟨?_, fun t ht => ?_⟩⟩
    · exact (length_of_mem_rows hrow).trans_lt A.alphabetSize_lt
    · obtain ⟨s, _, rfl⟩ := List.mem_map.1 hrow
      obtain ⟨target, _, rfl⟩ := List.mem_map.1 ht
      exact Nat.lt_trans target.2 A.stateCount_lt

theorem automaton?_record (A : Automaton) : A.record.automaton? = .ok A :=
  Record.automaton?_eq_ok.2 ⟨rfl, rfl, fun _ => Iff.rfl, rfl⟩

end Automaton

end FiniteReach
