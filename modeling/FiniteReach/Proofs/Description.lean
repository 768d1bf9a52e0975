import FiniteReach.Proofs.Table

/-!
# What descriptions describe

A description is read exactly if its numbers are a header and a table. `Header.numbers` writes a
header as it is read; what follows it is the table, whatever it holds (`load_of_numbers`).
-/

namespace FiniteReach.Description

/-! ## Headers -/

/-- A header as the numbers of a description. -/
def Header.numbers (header : Header) : List Nat :=
  header.alphabetSize :: header.stateCount :: header.initial :: header.finals.length ::
    header.finals

variable {path : Option String} {numbers rest : Numbers}

theorem readField_eq_ok {field : HeaderField} {v : Nat} :
    readField path field numbers = .ok (v, rest) ↔ numbers = .ok v :: rest := by
  match numbers with
  | [] => simp [readField]
  | .error fault :: tail => simp [readField]
  | .ok v' :: tail => simp [readField]

theorem readFinals_eq_ok {count : Nat} {states : List Nat} :
    readFinals path count numbers = .ok (states, rest) ↔
      states.length = count ∧ numbers = states.map .ok ++ rest := by
  induction count generalizing numbers rest states with
  | zero =>
      cases states with
      | nil => simp [readFinals]
      | cons s states => simp [readFinals]
  | succ count ih =>
      rw [readFinals]
      simp only [bind_eq_ok, Prod.exists, readField_eq_ok, ih]
      cases states with
      | nil => simp [pure, Except.pure]
      | cons s states =>
          constructor
          · rintro ⟨_, _, rfl, _, _, ⟨rfl, rfl⟩, h⟩
            cases h
            exact ⟨rfl, rfl⟩
          · rintro ⟨hl, rfl⟩
            exact ⟨s, _, rfl, states, rest, ⟨Nat.succ.inj hl, rfl⟩, rfl⟩

theorem readHeader_eq_ok {header : Header} : readHeader path numbers = .ok (header, rest) ↔
    numbers = header.numbers.map .ok ++ rest := by
  rw [readHeader]
  simp only [bind_eq_ok, Prod.exists, readField_eq_ok, readFinals_eq_ok]
  constructor
  · rintro ⟨_, _, rfl, _, _, rfl, _, _, rfl, _, _, rfl, _, _, ⟨rfl, rfl⟩, h⟩
    cases h
    rfl
  · rintro rfl
    exact ⟨_, _, rfl, _, _, rfl, _, _, rfl, _, _, rfl, _, _, ⟨rfl, rfl⟩, rfl⟩

/-! ## Headers that are cut off -/

/-- Numbers that end before this field of a header. -/
inductive EndsBefore : HeaderField → List Nat → Prop where
  | alphabetSize : EndsBefore .alphabetSize []
  | stateCount {k : Nat} : EndsBefore .stateCount [k]
  | initialState {k n : Nat} : EndsBefore .initialState [k, n]
  | finalStateCount {k n q : Nat} : EndsBefore .finalStateCount [k, n, q]
  | finalState {k n q count : Nat} {finals : List Nat} : finals.length < count →
      EndsBefore .finalState (k :: n :: q :: count :: finals)

theorem exists_endsBefore_or (numbers : List Nat) : (∃ field, EndsBefore field numbers) ∨
    ∃ (header : Header) (flat : List Nat), numbers = header.numbers ++ flat := by
  match numbers with
  | [] => exact .inl ⟨_, .alphabetSize⟩
  | [_] => exact .inl ⟨_, .stateCount⟩
  | [_, _] => exact .inl ⟨_, .initialState⟩
  | [_, _, _] => exact .inl ⟨_, .finalStateCount⟩
  | k :: n :: q :: count :: rest =>
      rcases Nat.lt_or_ge rest.length count with hshort | hlong
      · exact .inl ⟨_, .finalState hshort⟩
      · refine .inr ⟨⟨k, n, q, rest.take count⟩, rest.drop count, ?_⟩
        rw [Header.numbers, List.length_take_of_le hlong, List.cons_append, List.cons_append,
          List.cons_append, List.cons_append, List.take_append_drop]

variable {before : List Nat} {field : HeaderField} {fault : LoadFault}

theorem readFinals_of_short {count : Nat} (h : before.length < count)
    (hrest : readField path .finalState rest = .error fault) :
    readFinals path count (before.map .ok ++ rest) = .error fault := by
  induction count generalizing before with
  | zero => exact absurd h (Nat.not_lt_zero _)
  | succ count ih =>
      cases before with
      | nil =>
          rw [readFinals, List.map_nil, List.nil_append, hrest]
          rfl
      | cons s before =>
          rw [readFinals]
          change readFinals path count (before.map .ok ++ rest) >>= _ = _
          rw [ih (Nat.lt_of_succ_lt_succ h)]
          rfl

/-- What keeps the next field of a header from being read keeps the header from it. -/
theorem readHeader_of_endsBefore (h : EndsBefore field before)
    (hrest : readField path field rest = .error fault) :
    readHeader path (before.map .ok ++ rest) = .error fault := by
  rw [readHeader]
  cases h with
  | alphabetSize =>
      rw [List.map_nil, List.nil_append, hrest]
      rfl
  | stateCount =>
      change readField path .stateCount rest >>= _ = _
      rw [hrest]
      rfl
  | initialState =>
      change readField path .initialState rest >>= _ = _
      rw [hrest]
      rfl
  | finalStateCount =>
      change readField path .finalStateCount rest >>= _ = _
      rw [hrest]
      rfl
  | finalState hshort =>
      change readFinals path _ (_ ++ rest) >>= _ = _
      rw [readFinals_of_short hshort hrest]
      rfl

/-! ## Descriptions -/

variable {layout : Layout} {header : Header} {flat : List Nat} {A : Automaton} {src : Source}

theorem load_of_numbers (h : src.numbers = (header.numbers ++ flat).map .ok)
    (path : Option String) :
    load layout src path = (table layout header flat.toArray).mapError .malformed := by
  have hheader : readHeader path src.numbers = .ok (header, flat.map .ok) :=
    readHeader_eq_ok.2 (by rw [h, List.map_append])
  have hflat : (collect (flat.map .ok)).mapError (numberFault path) = .ok flat :=
    mapError_eq_ok.2 (collect_eq_ok.2 rfl)
  rw [load, hheader]
  change (collect (flat.map .ok)).mapError (numberFault path) >>= (fun flat =>
    (table layout header flat.toArray).mapError .malformed) = _
  rw [hflat]
  rfl

theorem load_of_endsBefore (h : EndsBefore field before)
    (hrest : readField path field rest = .error fault)
    (hnumbers : src.numbers = before.map .ok ++ rest) : load layout src path = .error fault := by
  rw [load, hnumbers, readHeader_of_endsBefore h hrest]
  rfl

/-- The first number that cannot be had is reported, wherever it stands. -/
theorem load_of_unread {unread : NumberFault}
    (hnumbers : src.numbers = before.map .ok ++ .error unread :: rest) (path : Option String) :
    load layout src path = .error (numberFault path unread) := by
  rcases exists_endsBefore_or before with ⟨field, hends⟩ | ⟨header, flat, rfl⟩
  · exact load_of_endsBefore hends rfl hnumbers
  · have hheader : readHeader path src.numbers =
        .ok (header, flat.map .ok ++ .error unread :: rest) :=
      readHeader_eq_ok.2 (by rw [hnumbers, List.map_append, List.append_assoc])
    rw [load, hheader]
    change (collect (flat.map .ok ++ .error unread :: rest)).mapError (numberFault path) >>= _ = _
    rw [collect_append_error]
    rfl

/-- What comes before the table is read alike in all layouts. -/
theorem load_eq_error_or_exists_numbers (src : Source) (path : Option String) :
    (∃ fault, ∀ layout, load layout src path = .error fault) ∨
      ∃ (header : Header) (flat : List Nat),
        src.numbers = (header.numbers ++ flat).map .ok := by
  cases hheader : readHeader path src.numbers with
  | error fault =>
      refine Or.inl ⟨fault, fun layout => ?_⟩
      rw [load, hheader]
      rfl
  | ok read =>
      obtain ⟨header, numbers⟩ := read
      cases hflat : collect numbers with
      | error fault =>
          refine Or.inl ⟨numberFault path fault, fun layout => ?_⟩
          rw [load, hheader]
          change (collect numbers).mapError (numberFault path) >>= _ = _
          rw [hflat]
          rfl
      | ok flat =>
          refine Or.inr ⟨header, flat, ?_⟩
          rw [readHeader_eq_ok.1 hheader, collect_eq_ok.1 hflat, List.map_append]

/-- A source describes an automaton exactly if its numbers are a header and a table of it. -/
theorem load_eq_ok : load layout src path = .ok A ↔
    ∃ header flat, src.numbers = (header.numbers ++ flat).map .ok ∧
      table layout header flat.toArray = .ok A := by
  constructor
  · intro h
    rcases load_eq_error_or_exists_numbers src path with ⟨fault, hfault⟩ | ⟨header, flat, hnumbers⟩
    · cases (hfault layout).symm.trans h
    · rw [load_of_numbers hnumbers, mapError_eq_ok] at h
      exact ⟨header, flat, hnumbers, h⟩
  · rintro ⟨header, flat, hnumbers, h⟩
    rw [load_of_numbers hnumbers, mapError_eq_ok, h]

end FiniteReach.Description
