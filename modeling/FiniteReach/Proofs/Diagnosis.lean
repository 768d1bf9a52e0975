import FiniteReach.Proofs.Blame
import FiniteReach.Proofs.Grammar

/-!
# What a description is refused for

Of all that may be wrong with a state-major description, one thing is reported. A digit run that is
too large comes first, wherever it stands, and then a header that is cut off. Then the length of the
table is looked at, then the labels of its triples, and what is wrong with the draft that they make
comes last (`load_stateMajor_eq_error_iff`).
-/

namespace FiniteReach.Description

variable {layout : Layout} {header : Header} {flat : Array Nat} {m : Nat} {fault : FormatFault}

/-! ## The steps of a table -/

theorem inRange_tableSteps (s a t : Nat) (hm : .transition s a t ∈ tableSteps layout header flat) :
    s < header.stateCount ∧ a < header.alphabetSize := by
  rcases List.mem_append.1 hm with hm | hm
  · simp at hm
  · obtain ⟨cell, _, h⟩ := List.mem_map.1 hm
    cases h
    exact ⟨div_lt_of_cell cell.2, mod_lt_of_cell cell.2⟩

/-- The steps of a table say what stands in its triples. -/
theorem draft_tableSteps
    (needed : layout.needed? header.alphabetSize header.stateCount = some m)
    (enough : m ≤ flat.size) :
    Draft.ofSteps header.alphabetSize header.stateCount (tableSteps layout header flat) =
      .ofTable layout header flat := by
  refine Draft.ofSteps_of_unique (fun step hm => ?_) fun s a t => ?_
  · obtain ⟨_, _, rfl⟩ := List.mem_map.1 hm
    exact ⟨_, _, _, rfl⟩
  · rw [mem_entries needed enough, Option.ite_none_right_eq_some, and_assoc]

/-! ## What is wrong with a table -/

/-- How many numbers the triples of all cells are. -/
def Header.tableSize (header : Header) : Nat := 3 * (header.stateCount * header.alphabetSize)

/-- What is reported of a header and the numbers after it. -/
inductive TableFault (header : Header) (flat : Array Nat) : FormatFault → Prop where
  | overflow : limit ≤ header.tableSize →
      TableFault header flat (.dimensionOverflow header.stateCount header.alphabetSize)
  | truncated : header.tableSize < limit → flat.size < header.tableSize →
      TableFault header flat (.truncated header.tableSize flat.size)
  | trailing : header.tableSize < limit → header.tableSize < flat.size →
      TableFault header flat (.trailing header.tableSize flat.size)
  | mislabelled {s a : Nat} {label : Nat × Nat} :
      header.tableSize < limit → flat.size = header.tableSize →
      FirstMislabelled header flat s a label →
      TableFault header flat (.mislabelled (s * header.alphabetSize + a) (s, a) label)
  | draft {fault : FormatFault} :
      header.tableSize < limit → flat.size = header.tableSize → Labelled .stateMajor header flat →
      (Draft.ofTable .stateMajor header flat).FirstFault fault → TableFault header flat fault

theorem needed?_eq_some_tableSize :
    Layout.stateMajor.needed? header.alphabetSize header.stateCount = some m ↔
      header.tableSize < limit ∧ m = header.tableSize :=
  Layout.needed?_stateMajor_eq_some

theorem fits_of_tableSize_lt (h : header.tableSize < limit) (hn : header.stateCount < limit) :
    Fits header.alphabetSize header.stateCount := by
  rw [Header.tableSize] at h
  exact ⟨by omega, hn⟩

theorem table_of_tableFault (h : TableFault header flat fault) (hn : header.stateCount < limit) :
    table .stateMajor header flat = .error fault := by
  cases h with
  | overflow hlimit =>
      refine table_of_overflow (Option.eq_none_iff_forall_ne_some.2 fun m hm => ?_)
      exact Nat.not_lt.2 hlimit (needed?_eq_some_tableSize.1 hm).1
  | truncated hlt hshort => exact table_of_short (needed?_eq_some_tableSize.2 ⟨hlt, rfl⟩) hshort
  | trailing hlt hlong => exact table_of_long (needed?_eq_some_tableSize.2 ⟨hlt, rfl⟩) hlong
  | mislabelled hlt hsize hfirst =>
      exact table_of_firstMislabelled (needed?_eq_some_tableSize.2 ⟨hlt, hsize⟩) hfirst
  | draft hlt hsize hlabel hfault =>
      have hneeded := needed?_eq_some_tableSize.2 ⟨hlt, hsize⟩
      rw [← draft_tableSteps hneeded (Nat.le_refl _)] at hfault
      rw [table_eq_ofSteps hneeded (Nat.le_refl _) fun _ => ⟨rfl, hlabel⟩]
      have fits := fits_of_tableSize_lt hlt hn
      exact BuildStep.ofSteps_of_firstFault (.draft fits inRange_tableSteps hfault)

theorem exists_tableFault_or (hn : header.stateCount < limit) (flat : Array Nat) :
    (∃ fault, TableFault header flat fault) ∨ ∃ A, table .stateMajor header flat = .ok A := by
  rcases Nat.lt_or_ge header.tableSize limit with hlt | hlimit
  · rcases Nat.lt_trichotomy flat.size header.tableSize with hshort | hsize | hlong
    · exact .inl ⟨_, .truncated hlt hshort⟩
    · have hneeded := needed?_eq_some_tableSize.2 ⟨hlt, hsize⟩
      rcases exists_firstMislabelled_or hneeded with ⟨s, a, label, h⟩ | hlabel
      · exact .inl ⟨_, .mislabelled hlt hsize h⟩
      · have fits := fits_of_tableSize_lt hlt hn
        rw [table_eq_ofSteps hneeded (Nat.le_refl _) fun _ => ⟨rfl, hlabel⟩]
        refine (BuildStep.exists_draftFault_or_ofSteps fits inRange_tableSteps).imp_left ?_
        rintro ⟨fault, h⟩
        rw [draft_tableSteps hneeded (Nat.le_refl _)] at h
        exact ⟨fault, .draft hlt hsize hlabel h⟩
    · exact .inl ⟨_, .trailing hlt hlong⟩
  · exact .inl ⟨_, .overflow hlimit⟩

/-- A table of the right size lacks no target. -/
theorem not_tableFault_missing (s a : Nat) : ¬ TableFault header flat (.missingTransition s a) := by
  intro h
  cases h with
  | draft hlt hsize _ h =>
      have hneeded := needed?_eq_some_tableSize.2 ⟨hlt, hsize⟩
      obtain ⟨_, _, he⟩ := h.exists_state fun s hs a ha =>
        ⟨_, (if_pos ⟨hs, ha⟩).trans (getElem?_triple hneeded (Nat.le_refl _) hs ha).2.2⟩
      cases he

/-! ## What is wrong with a description -/

/-- What is reported of a state-major description. -/
inductive FirstFault (bs : Bytes) : FormatFault → Prop where
  | tooLarge {found : List Bytes} {i : Nat} {run : Bytes} : Numeral.Parted bs found →
      FirstAt (fun run => limit ≤ Numeral.value run) found i run →
      FirstFault bs (.numberTooLarge run)
  | ended {numbers : List Nat} {field : HeaderField} : Numeral.Denotes bs numbers →
      EndsBefore field numbers → FirstFault bs (.unexpectedEnd field)
  | table {header : Header} {flat : List Nat} {fault : FormatFault} :
      Numeral.Denotes bs (header.numbers ++ flat) → TableFault header flat.toArray fault →
      FirstFault bs fault

variable {bs : Bytes}

theorem stateCount_lt_of_denotes {flat : List Nat}
    (h : Numeral.Denotes bs (header.numbers ++ flat)) : header.stateCount < limit :=
  h.lt (by simp [Header.numbers])

theorem load_of_firstFault (h : FirstFault bs fault) (path : Option String) :
    load .stateMajor (.ofBytes bs) path = .error (.malformed fault) := by
  cases h with
  | tooLarge hparted hfirst =>
      rw [← hparted.runs_eq] at hfirst
      obtain ⟨before, rest, hmap⟩ := Numeral.map_ofRun_of_firstAt NumberFault.tooLarge hfirst
      have hnumbers : (Source.ofBytes bs).numbers = List.map .ok before ++ _ := hmap
      exact load_of_unread hnumbers path
  | ended hdenotes hends =>
      refine load_of_endsBefore hends (rfl : readField path _ [] = _) ?_
      rw [Source.numbers_eq_iff.2 hdenotes, List.append_nil]
  | table hdenotes htable =>
      rw [load_of_numbers (Source.numbers_eq_iff.2 hdenotes),
        table_of_tableFault htable (stateCount_lt_of_denotes hdenotes)]
      rfl

theorem exists_firstFault_or_load (bs : Bytes) (path : Option String) :
    (∃ fault, FirstFault bs fault) ∨ ∃ A, load .stateMajor (.ofBytes bs) path = .ok A := by
  obtain ⟨found, hparted⟩ := Numeral.exists_parted bs
  rcases FirstAt.exists_or_forall_not (fun run => limit ≤ Numeral.value run) found with
    ⟨i, run, h⟩ | hall
  · exact .inl ⟨_, .tooLarge hparted h⟩
  · have hdenotes : Numeral.Denotes bs (found.map Numeral.value) :=
      ⟨found, hparted, fun run hm => Nat.lt_of_not_le (hall run hm), rfl⟩
    rcases exists_endsBefore_or (found.map Numeral.value) with ⟨field, h⟩ | ⟨header, flat, h⟩
    · exact .inl ⟨_, .ended hdenotes h⟩
    · rw [h] at hdenotes
      rw [load_of_numbers (Source.numbers_eq_iff.2 hdenotes)]
      rcases exists_tableFault_or (stateCount_lt_of_denotes hdenotes) flat.toArray with
        ⟨fault, hfault⟩ | ⟨A, hA⟩
      · exact .inl ⟨fault, .table hdenotes hfault⟩
      · exact .inr ⟨A, mapError_eq_ok.2 hA⟩

/-- What is reported of bytes that do not describe an automaton; no transition is ever missing. -/
theorem load_stateMajor_eq_error_iff (bs : Bytes) (path : Option String) :
    (∀ fault, load .stateMajor (.ofBytes bs) path = .error fault ↔
      ∃ cause, fault = .malformed cause ∧ FirstFault bs cause) ∧
    ∀ s a, ¬ FirstFault bs (.missingTransition s a) := by
  refine ⟨eq_error_iff_of_total ?_ ?_, fun s a h => ?_⟩
  · rintro _ ⟨cause, rfl, h⟩
    exact load_of_firstFault h path
  · refine (exists_firstFault_or_load bs path).imp_left ?_
    rintro ⟨cause, h⟩
    exact ⟨_, cause, rfl, h⟩
  · cases h with
    | table _ h => exact not_tableFault_missing s a h

/-- The last number is too large, whatever else is wrong with what comes before it. -/
example : load .stateMajor (.ofBytes (Text.utf8 "1 1 7 3 9 0 5 18446744073709551616")) none =
    .error (.malformed (.numberTooLarge (Text.utf8 "18446744073709551616"))) := by rfl

end FiniteReach.Description
