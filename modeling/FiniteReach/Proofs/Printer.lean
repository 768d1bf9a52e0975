import FiniteReach.Format
import FiniteReach.Proofs.Description
import FiniteReach.Proofs.Numeral
import FiniteReach.Proofs.Record
import FiniteReach.Proofs.Transitions

/-!
# Descriptions that are written and read

The printed numbers of an automaton are a header and the numbers of its cells one after another, and
these are just what the state-major layout asks for (`tabled_stateMajor_iff`).
-/

namespace FiniteReach

/-! ## Triples -/

/-- Triples as they are printed, one number after another. -/
def flatTriples (triples : List (Nat × Nat × Nat)) : List Nat :=
  triples.flatMap fun (s, a, t) => [s, a, t]

theorem length_flatTriples (triples : List (Nat × Nat × Nat)) :
    (flatTriples triples).length = 3 * triples.length := by
  induction triples with
  | nil => rfl
  | cons triple triples ih =>
      rw [flatTriples, List.flatMap_cons, List.length_append, ← flatTriples, ih, List.length_cons]
      simp only [List.length_cons, List.length_nil]
      omega

/-- Three numbers for each triple, in its order. -/
theorem getElem?_flatTriples {triples : List (Nat × Nat × Nat)} {i s a t : Nat}
    (h : triples[i]? = some (s, a, t)) :
    (flatTriples triples)[3 * i]? = some s ∧ (flatTriples triples)[3 * i + 1]? = some a ∧
      (flatTriples triples)[3 * i + 2]? = some t := by
  induction triples generalizing i with
  | nil => cases h
  | cons triple triples ih =>
      cases i with
      | zero =>
          cases h
          exact ⟨rfl, rfl, rfl⟩
      | succ i => exact ih h

namespace Automaton

/-- Row, column and target of each cell, state by state and within a state symbol by symbol. -/
def cellNumbers (A : Automaton) : List Nat :=
  (List.finRange A.stateCount).flatMap fun s =>
    (List.finRange A.alphabetSize).flatMap fun a => [s.1, a.1, (A.next s a).1]

theorem cellNumbers_eq (A : Automaton) : A.cellNumbers = flatTriples A.transitions := by
  rw [flatTriples, transitions_eq, List.flatMap_assoc, cellNumbers]
  simp only [List.flatMap_map]

theorem length_cellNumbers (A : Automaton) :
    A.cellNumbers.length = 3 * (A.stateCount * A.alphabetSize) := by
  rw [cellNumbers_eq, length_flatTriples, length_transitions]

/-- The three numbers of a cell stand where the state-major layout looks for them. -/
theorem getElem?_cellNumbers (A : Automaton) (s : Fin A.stateCount) (a : Fin A.alphabetSize) :
    A.cellNumbers[3 * (s.1 * A.alphabetSize + a.1)]? = some s.1 ∧
      A.cellNumbers[3 * (s.1 * A.alphabetSize + a.1) + 1]? = some a.1 ∧
        A.cellNumbers[3 * (s.1 * A.alphabetSize + a.1) + 2]? = some (A.next s a).1 := by
  rw [cellNumbers_eq]
  exact getElem?_flatTriples (A.getElem?_transitions s a)

/-- Numbers that stand where those of the cells stand, and no others, are those of the cells. -/
theorem eq_cellNumbers {A : Automaton} {flat : List Nat}
    (hlength : flat.length = 3 * (A.stateCount * A.alphabetSize))
    (h : ∀ (s : Fin A.stateCount) (a : Fin A.alphabetSize),
      flat[3 * (s.1 * A.alphabetSize + a.1)]? = some s.1 ∧
        flat[3 * (s.1 * A.alphabetSize + a.1) + 1]? = some a.1 ∧
          flat[3 * (s.1 * A.alphabetSize + a.1) + 2]? = some (A.next s a).1) :
    flat = A.cellNumbers := by
  refine List.ext_getElem? fun i => ?_
  by_cases hi : i < 3 * (A.stateCount * A.alphabetSize)
  · have hcell : i / 3 < A.stateCount * A.alphabetSize := by omega
    obtain ⟨h₀, h₁, h₂⟩ := h ⟨_, div_lt_of_cell hcell⟩ ⟨_, mod_lt_of_cell hcell⟩
    obtain ⟨e₀, e₁, e₂⟩ :=
      A.getElem?_cellNumbers ⟨_, div_lt_of_cell hcell⟩ ⟨_, mod_lt_of_cell hcell⟩
    simp only [Nat.div_add_mod'] at h₀ h₁ h₂ e₀ e₁ e₂
    -- Which of the three numbers of its triple is this?
    obtain hr | hr | hr : i = 3 * (i / 3) ∨ i = 3 * (i / 3) + 1 ∨ i = 3 * (i / 3) + 2 := by omega
    · rw [hr, h₀, e₀]
    · rw [hr, h₁, e₁]
    · rw [hr, h₂, e₂]
  · rw [List.getElem?_eq_none (by omega),
      List.getElem?_eq_none (by rw [length_cellNumbers]; omega)]

end Automaton

namespace Description

/-! ## Rows of numbers -/

/-- What the header of an automaton's description says. -/
def Header.ofAutomaton (A : Automaton) : Header where
  alphabetSize := A.alphabetSize
  stateCount := A.stateCount
  initial := A.initial
  finals := A.finals

/-- The numbers of each line. -/
def rows (A : Automaton) : List (List Nat) :=
  [A.alphabetSize, A.stateCount, A.initial] :: (A.finals.length :: A.finals) ::
    A.transitions.map fun (s, a, t) => [s, a, t]

theorem lines_eq (A : Automaton) : lines A = (rows A).map line := by
  rw [lines, rows, List.map_cons, List.map_cons, List.map_map]
  rfl

theorem flatten_rows (A : Automaton) :
    (rows A).flatten = (Header.ofAutomaton A).numbers ++ A.cellNumbers := by
  rw [rows, A.cellNumbers_eq, flatTriples, List.flatMap_def]
  rfl

theorem lt_of_mem_rows {A : Automaton} {v : Nat} (h : v ∈ (rows A).flatten) : v < limit := by
  have hstate : ∀ s < A.stateCount, s < limit := fun s hs => Nat.lt_trans hs A.stateCount_lt
  simp only [flatten_rows, A.cellNumbers_eq, Header.numbers, Header.ofAutomaton, flatTriples,
    List.cons_append, List.mem_cons, List.mem_append, List.mem_flatMap, List.not_mem_nil,
    or_false] at h
  rcases h with rfl | rfl | rfl | rfl | hf | ⟨⟨s, a, t⟩, ht, hv⟩
  · exact A.alphabetSize_lt
  · exact A.stateCount_lt
  · exact hstate _ A.initial_lt
  · exact A.length_finals_lt
  · exact hstate _ (A.finals_lt v hf)
  · obtain ⟨hs, ha, rfl⟩ := Automaton.mem_transitions.1 ht
    rcases hv with rfl | rfl | rfl
    · exact hstate _ hs
    · exact Nat.lt_trans ha A.alphabetSize_lt
    · exact hstate _ (A.next _ _).2

/-! ## The way back -/

theorem tabled_stateMajor_iff {A : Automaton} {flat : List Nat} :
    Tabled .stateMajor A flat.toArray ↔
      3 * A.stateCount * A.alphabetSize < limit ∧ flat = A.cellNumbers := by
  rw [Nat.mul_assoc]
  constructor
  · intro h
    obtain ⟨m, hm, _, hsize⟩ := h.needed
    obtain ⟨hlt, rfl⟩ := Layout.needed?_stateMajor_eq_some.1 hm
    refine ⟨hlt, Automaton.eq_cellNumbers (hsize rfl) fun s a => ?_⟩
    have htarget := h.target s a
    have hlabel := h.label rfl s a
    rw [List.getElem?_toArray] at htarget
    rw [List.getElem?_toArray, List.getElem?_toArray] at hlabel
    exact ⟨hlabel.1, hlabel.2, htarget⟩
  · rintro ⟨hlt, rfl⟩
    have hsize : A.cellNumbers.toArray.size = 3 * (A.stateCount * A.alphabetSize) :=
      A.length_cellNumbers
    refine ⟨⟨_, Layout.needed?_stateMajor_eq_some.2 ⟨hlt, rfl⟩, Nat.le_of_eq hsize.symm,
      fun _ => hsize⟩, fun s a => ?_, fun _ s a => ?_⟩
    · rw [List.getElem?_toArray]
      exact (A.getElem?_cellNumbers s a).2.2
    · rw [List.getElem?_toArray, List.getElem?_toArray]
      exact ⟨(A.getElem?_cellNumbers s a).1, (A.getElem?_cellNumbers s a).2.1⟩

/-- A printed automaton is read as its header and the numbers of its cells, in any layout. -/
theorem load_lines_eq {A : Automaton} (layout : Layout) (path : Option String) :
    load layout (.ofBytes (lines A).flatten) path =
      (table layout (.ofAutomaton A) A.cellNumbers.toArray).mapError .malformed := by
  refine load_of_numbers ?_ path
  rw [lines_eq, Source.numbers_lines fun _ => lt_of_mem_rows, flatten_rows]

theorem load_lines {A : Automaton} (h : 3 * A.stateCount * A.alphabetSize < limit)
    (path : Option String) : load .stateMajor (.ofBytes (lines A).flatten) path = .ok A := by
  rw [load_lines_eq, mapError_eq_ok]
  exact table_eq_ok.2
    ⟨rfl, rfl, rfl, fun _ => Iff.rfl, tabled_stateMajor_iff.2 ⟨h, rfl⟩⟩

end Description

namespace Format

variable {A : Automaton}

/-- Storing succeeds exactly if there is room, and then all has been stored. -/
theorem save_eq_ok {format : Format} {sink written : Sink} :
    format.save A sink = (.ok (), written) ↔ (format.encode A).length ≤ sink.room ∧
      written = { sink with
        held := sink.held ++ format.encode A, room := sink.room - (format.encode A).length } := by
  rw [encode, ← Sink.write_eq_ok, save]
  simp only [Prod.ext_iff, mapError_eq_ok]

/-- What has been stored as text is read back, and so is what a sink with room for it has taken. -/
theorem load_text_encode (h : 3 * A.stateCount * A.alphabetSize < limit) :
    Format.text.load (.ofBytes (Format.text.encode A)) = .ok A ∧
      ∀ sink : Sink, sink.held = #[] → (Format.text.encode A).length ≤ sink.room →
        ∃ written, Format.text.save A sink = (.ok (), written) ∧
          Format.text.load (.ofBytes written.held.toList) = .ok A := by
  have hload : Format.text.load (.ofBytes (Format.text.encode A)) = .ok A :=
    mapError_eq_ok.2 (Description.load_lines h none)
  refine ⟨hload, fun sink hheld hroom => ⟨_, save_eq_ok.2 ⟨hroom, rfl⟩, ?_⟩⟩
  rw [hheld, Array.toList_appendList]
  exact hload

end Format

/-- Three states and four symbols. -/
def Automaton.wide : Automaton where
  alphabetSize := 4
  stateCount := 3
  initial := 1
  finals := [2]
  table := #[1, 0, 0, 1, 2, 0, 0, 2, 0, 1, 1, 0]
  initial_lt := by decide
  finals_lt := by decide
  finals_ascending := by decide
  size_table := by decide
  target_lt := by decide
  stateCount_lt := by decide
  size_lt := by decide

theorem Format.wide_load :
    Format.text.load (.ofBytes (Text.utf8 ("4 3 1\n1 2\n" ++
      "0 0 1\n0 1 0\n0 2 0\n0 3 1\n1 0 2\n1 1 0\n1 2 0\n1 3 2\n" ++
      "2 0 0\n2 1 1\n2 2 1\n2 3 0\n"))) = .ok Automaton.wide := by
  have htext : Format.text.encode Automaton.wide = Text.utf8 ("4 3 1\n1 2\n" ++
      "0 0 1\n0 1 0\n0 2 0\n0 3 1\n1 0 2\n1 1 0\n1 2 0\n1 3 2\n" ++
      "2 0 0\n2 1 1\n2 2 1\n2 3 0\n") := by decide +kernel
  rw [← htext]
  exact (load_text_encode (by decide)).1

end FiniteReach
