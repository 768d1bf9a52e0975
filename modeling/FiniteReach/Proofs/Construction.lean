import FiniteReach.Format
import FiniteReach.Proofs.Description
import FiniteReach.Proofs.Record

/-!
# Every way to an automaton

Whatever an automaton is made from, the input names a draft: dimensions, an initial state, final
states and targets, as they were given and not yet checked. A construction that succeeds had a well
formed draft, and its result holds just what the draft says.
-/

namespace FiniteReach

/-! ## Drafts -/

/-- An automaton as it is given, of which nothing is promised. -/
structure Draft where
  alphabetSize : Nat
  stateCount : Nat
  initial : Nat
  finals : List Nat
  /-- The target of a cell, if one is given. -/
  target : Nat → Nat → Option Nat

namespace Draft

/-- Every state is in range, and exactly the cells of a table that can be indexed have targets. -/
structure WellFormed (d : Draft) : Prop where
  size_lt : d.stateCount * d.alphabetSize < limit
  initial_lt : d.initial < d.stateCount
  finals_lt : ∀ f ∈ d.finals, f < d.stateCount
  target_isSome : ∀ s a, (d.target s a).isSome ↔ s < d.stateCount ∧ a < d.alphabetSize
  target_lt : ∀ s a t, d.target s a = some t → t < d.stateCount

/-- What steps say last. -/
def ofSteps (k n : Nat) (steps : List BuildStep) : Draft where
  alphabetSize := k
  stateCount := n
  initial := lastInitial steps
  finals := steps.filterMap BuildStep.final?
  target := lastTarget? steps

/-- The rows as they are. -/
def ofRecord (r : Record) : Draft where
  alphabetSize := r.alphabetSize
  stateCount := r.rows.length
  initial := r.initial
  finals := r.finals
  target s a := r.rows[s]?.bind (·[a]?)

/-- The last number of the triple of each cell. -/
def ofTable (layout : Layout) (header : Description.Header) (flat : Array Nat) : Draft where
  alphabetSize := header.alphabetSize
  stateCount := header.stateCount
  initial := header.initial
  finals := header.finals
  target s a :=
    if s < header.stateCount ∧ a < header.alphabetSize then
      flat[3 * layout.triple header.alphabetSize header.stateCount s a + 2]?
    else none

end Draft

namespace Automaton

variable {A : Automaton}

/-- `A` holds what a draft says, and nothing else. -/
structure Holds (A : Automaton) (d : Draft) : Prop where
  alphabetSize : A.alphabetSize = d.alphabetSize
  stateCount : A.stateCount = d.stateCount
  initial : A.initial = d.initial
  mem_finals : ∀ f, f ∈ A.finals ↔ f ∈ d.finals
  target : ∀ s a t, d.target s a = some t ↔ (s, a, t) ∈ A.transitions

theorem Holds.wellFormed {d : Draft} (h : A.Holds d) : d.WellFormed where
  size_lt := h.alphabetSize ▸ h.stateCount ▸ A.size_lt
  initial_lt := h.initial ▸ h.stateCount ▸ A.initial_lt
  finals_lt f hf := h.stateCount ▸ A.finals_lt f ((h.mem_finals f).2 hf)
  target_isSome s a := by
    rw [Option.isSome_iff_exists, ← h.stateCount, ← h.alphabetSize]
    simp only [h.target, mem_transitions]
    constructor
    · rintro ⟨_, hs, ha, _⟩
      exact ⟨hs, ha⟩
    · rintro ⟨hs, ha⟩
      exact ⟨_, hs, ha, rfl⟩
  target_lt s a t ht := by
    obtain ⟨hs, ha, rfl⟩ := mem_transitions.1 ((h.target s a t).1 ht)
    rw [← h.stateCount]
    exact (A.next _ _).2

theorem holds_of_ofSteps {k n : Nat} {steps : List BuildStep} (h : ofSteps k n steps = .ok A) :
    A.Holds (.ofSteps k n steps) := by
  obtain ⟨hk, hn, h⟩ := ofSteps_eq_ok.1 h
  refine ⟨hk, hn, h.initial, fun f => (h.mem_finals f).trans mem_filterMap_final.symm, ?_⟩
  intro s a t
  rw [mem_transitions]
  constructor
  · intro ht
    obtain ⟨hs, ha⟩ := h.inRange _ _ _ (mem_of_lastTarget? ht)
    exact ⟨hs, ha, Option.some.inj ((h.target ⟨s, hs⟩ ⟨a, ha⟩).symm.trans ht)⟩
  · rintro ⟨hs, ha, rfl⟩
    exact h.target ⟨s, hs⟩ ⟨a, ha⟩

theorem holds_of_automaton? {r : Record} (h : r.automaton? = .ok A) : A.Holds (.ofRecord r) := by
  obtain ⟨hk, hq, hfs, hrows⟩ := Record.automaton?_eq_ok.1 h
  refine ⟨hk, ?_, hq, hfs, fun s a t => ?_⟩
  · exact length_rows.symm.trans (congrArg List.length hrows)
  · rw [← entry_rows, hrows]
    exact Option.bind_eq_some_iff

theorem holds_of_table {layout : Layout} {header : Description.Header} {flat : Array Nat}
    (h : Description.table layout header flat = .ok A) :
    A.Holds (.ofTable layout header flat) := by
  obtain ⟨hk, hn, hq, hfs, h⟩ := Description.table_eq_ok.1 h
  refine ⟨hk, hn, hq, hfs, fun s a t => ?_⟩
  simp only [Draft.ofTable, ← hk, ← hn, mem_transitions, Option.ite_none_right_eq_some]
  constructor
  · rintro ⟨⟨hs, ha⟩, ht⟩
    exact ⟨hs, ha, Option.some.inj ((h.target ⟨s, hs⟩ ⟨a, ha⟩).symm.trans ht)⟩
  · rintro ⟨hs, ha, rfl⟩
    exact ⟨⟨hs, ha⟩, h.target ⟨s, hs⟩ ⟨a, ha⟩⟩

end Automaton

/-! ## The automaton of a draft -/

namespace Draft

variable {d : Draft}

/-- The automaton that a well formed draft describes. -/
def automaton (d : Draft) (h : d.WellFormed) (hn : d.stateCount < limit) : Automaton where
  alphabetSize := d.alphabetSize
  stateCount := d.stateCount
  initial := d.initial
  finals := ascending d.finals
  table := Array.ofFn fun cell : Fin (d.stateCount * d.alphabetSize) =>
    (d.target (cell / d.alphabetSize) (cell % d.alphabetSize)).get
      ((h.target_isSome _ _).2 ⟨div_lt_of_cell cell.2, mod_lt_of_cell cell.2⟩)
  initial_lt := h.initial_lt
  finals_lt f hf := h.finals_lt f (mem_ascending.1 hf)
  finals_ascending := ascending_pairwise _
  size_table := Array.size_ofFn
  target_lt t ht := by
    obtain ⟨cell, rfl⟩ := Array.mem_ofFn.1 ht
    exact h.target_lt _ _ _ (Option.some_get _).symm
  stateCount_lt := hn
  size_lt := h.size_lt

theorem next_automaton {h : d.WellFormed} {hn : d.stateCount < limit} (s : Fin d.stateCount)
    (a : Fin d.alphabetSize) : d.target s a = some ((d.automaton h hn).next s a).1 := by
  simp only [Automaton.next, automaton, Array.getElem_ofFn, cell_div a.2, cell_mod a.2,
    Option.some_get]

theorem holds_automaton (h : d.WellFormed) (hn : d.stateCount < limit) :
    (d.automaton h hn).Holds d where
  alphabetSize := rfl
  stateCount := rfl
  initial := rfl
  mem_finals _ := mem_ascending
  target s a t := by
    rw [Automaton.mem_transitions]
    constructor
    · intro ht
      obtain ⟨hs, ha⟩ := (h.target_isSome s a).1 (Option.isSome_iff_exists.2 ⟨t, ht⟩)
      exact ⟨hs, ha, Option.some.inj ((next_automaton ⟨s, hs⟩ ⟨a, ha⟩).symm.trans ht)⟩
    · rintro ⟨hs, ha, rfl⟩
      exact next_automaton ⟨s, hs⟩ ⟨a, ha⟩

end Draft

/-! ## Constructions -/

/-- The ways in which automata are made. -/
inductive Construction where
  | steps (alphabetSize stateCount : Nat) (steps : List BuildStep)
  | record (r : Record)
  | description (layout : Layout) (src : Source) (path : Option String)
  | stored (format : Format) (src : Source)

namespace Construction

/-- The construction succeeds with `A`. -/
def Yields : Construction → Automaton → Prop
  | .steps k n taken, A => Automaton.ofSteps k n taken = .ok A
  | .record r, A => r.automaton? = .ok A
  | .description layout src path, A => Description.load layout src path = .ok A
  | .stored format src, A => format.load src = .ok A

/-- The numbers of a source are those of a header and a table that make the draft. -/
def NamesTable (layout : Layout) (src : Source) (d : Draft) : Prop :=
  ∃ header flat, src.numbers = (header.numbers ++ flat).map .ok ∧
    d = .ofTable layout header flat.toArray

/-- The draft that the input of a construction names. -/
def Names : Construction → Draft → Prop
  | .steps k n taken, d => d = .ofSteps k n taken
  | .record r, d => d = .ofRecord r
  | .description layout src _, d => NamesTable layout src d
  | .stored .text src, d => NamesTable .stateMajor src d
  | .stored .binary src, d => ∃ r, Binary.readRecord src = .ok r ∧ d = .ofRecord r
  | .stored .json src, d => ∃ r, Json.readRecord src = .ok r ∧ d = .ofRecord r

variable {A : Automaton}

theorem exists_table {layout : Layout} {src : Source} {path : Option String}
    (h : Description.load layout src path = .ok A) : ∃ d, NamesTable layout src d ∧ A.Holds d := by
  obtain ⟨header, flat, hnumbers, ht⟩ := Description.load_eq_ok.1 h
  exact ⟨_, ⟨header, flat, hnumbers, rfl⟩, Automaton.holds_of_table ht⟩

theorem exists_draft {c : Construction} (h : c.Yields A) : ∃ d, c.Names d ∧ A.Holds d := by
  cases c with
  | steps k n taken => exact ⟨_, rfl, Automaton.holds_of_ofSteps h⟩
  | record r => exact ⟨_, rfl, Automaton.holds_of_automaton? h⟩
  | description layout src path => exact exists_table h
  | stored format src =>
      cases format with
      | text => exact exists_table (mapError_eq_ok.1 h)
      | binary =>
          obtain ⟨r, hr, h⟩ := bind_eq_ok.1 h
          exact ⟨_, ⟨r, mapError_eq_ok.1 hr, rfl⟩, Automaton.holds_of_automaton? (mapError_eq_ok.1 h)⟩
      | json =>
          obtain ⟨r, hr, h⟩ := bind_eq_ok.1 h
          exact ⟨_, ⟨r, mapError_eq_ok.1 hr, rfl⟩, Automaton.holds_of_automaton? (mapError_eq_ok.1 h)⟩

/-- What is made is well formed, and so was what it was made from. -/
theorem wellFormed_of_yields {c : Construction} (h : c.Yields A) :
    (∃ d, c.Names d ∧ d.WellFormed ∧ A.Holds d) ∧
      A.initial < A.stateCount ∧ (∀ f ∈ A.finals, f < A.stateCount) ∧
      A.finals.Pairwise (· < ·) ∧ A.table.size = A.stateCount * A.alphabetSize ∧
      A.stateCount * A.alphabetSize < limit ∧ ∀ t ∈ A.table, t < A.stateCount := by
  obtain ⟨d, hd, hA⟩ := exists_draft h
  exact ⟨⟨d, hd, hA.wellFormed, hA⟩, A.initial_lt, A.finals_lt, A.finals_ascending, A.size_table,
    A.size_lt, A.target_lt⟩

/-- Two states that one symbol swaps. -/
def swap : Automaton where
  alphabetSize := 1
  stateCount := 2
  initial := 0
  finals := [1]
  table := #[1, 0]
  initial_lt := by decide
  finals_lt := by decide
  finals_ascending := by decide
  size_table := by decide
  target_lt := by decide
  stateCount_lt := by decide
  size_lt := by decide

/-- A description of them with a triple that holds no cell. -/
def swapDescription : Construction :=
  .description .legacy (.ofBytes (Text.utf8 "1 2 0 2 1 1  0 0 1  9 9 9  7 7 0")) none

theorem swapDescription_wellFormed :
    swapDescription.Yields swap ∧ ∃ d, swapDescription.Names d ∧ d.WellFormed ∧ swap.Holds d :=
  have h : swapDescription.Yields swap := by rfl
  ⟨h, (wellFormed_of_yields h).1⟩

end Construction

end FiniteReach
