import FiniteReach.Proofs.Binary
import FiniteReach.Proofs.Disk
import FiniteReach.Proofs.Json.Record
import FiniteReach.Proofs.Printer
import FiniteReach.Proofs.Steps

/-!
# Stored automata whose format is found out

The first bytes of a stored automaton suggest its format, except that a binary form may happen to
start with a brace (`ofHead_encode`). A disk holds what was last written to it (`runOn_store_eq_ok`),
so what is stored in a file whose name tells nothing is read back from it.
-/

namespace FiniteReach

variable {A : Automaton} {format : Format} {path : String}

/-! ## Bytes of stored automata -/

namespace Description

theorem mem_intercalate {numbers : List Nat} {b : UInt8}
    (h : b ∈ [32].intercalate (numbers.map Numeral.digits)) :
    Numeral.isDigit b = true ∨ b = 32 := by
  induction numbers with
  | nil => cases h
  | cons n numbers ih =>
      cases numbers with
      | nil =>
          rw [List.map_singleton, List.intercalate_singleton] at h
          exact .inl (Numeral.isDigit_of_mem_digits h)
      | cons m numbers =>
          rw [List.map_cons, List.map_cons, List.intercalate_cons_cons, ← List.map_cons,
            List.mem_append, List.mem_append, List.mem_singleton] at h
          rcases h with (h | rfl) | h
          · exact .inl (Numeral.isDigit_of_mem_digits h)
          · exact .inr rfl
          · exact ih h

theorem mem_lines {b : UInt8} (h : b ∈ (lines A).flatten) :
    Numeral.isDigit b = true ∨ b = 32 ∨ b = 10 := by
  obtain ⟨_, hline, hb⟩ := List.mem_flatten.1 h
  rw [lines_eq] at hline
  obtain ⟨numbers, _, rfl⟩ := List.mem_map.1 hline
  rcases List.mem_append.1 hb with hb | hb
  · exact (mem_intercalate hb).imp_right .inl
  · exact .inr (.inr (List.mem_singleton.1 hb))

end Description

namespace Binary

/-- The last byte of a number that needs fewer bytes is zero. -/
theorem zero_mem_littleEndian {count n : Nat} (h : n < Nat.pow 256 count) :
    0 ∈ littleEndian (count + 1) n := by
  induction count generalizing n with
  | zero =>
      cases Nat.lt_one_iff.1 h
      exact List.mem_singleton_self _
  | succ count ih =>
      exact List.mem_cons_of_mem _ (ih (Nat.div_lt_of_lt_mul (Nat.mul_comm _ 256 ▸ h)))

/-- The dimensions and the initial state of an automaton cannot fill all their bytes. -/
theorem zero_mem_take_printRecord (A : Automaton) {count : Nat} (hcount : 16 ≤ count) :
    0 ∈ (printRecord A.record).take count := by
  have hsmall : A.alphabetSize < Nat.pow 256 7 ∨ A.initial < Nat.pow 256 7 := by
    by_contra hlarge
    rw [not_or, Nat.not_lt, Nat.not_lt] at hlarge
    have hcells := Nat.mul_le_mul (Nat.le_trans hlarge.2 (Nat.le_of_lt A.initial_lt)) hlarge.1
    exact absurd (Nat.lt_of_le_of_lt hcells A.size_lt) (by decide)
  have hzero : 0 ∈ littleEndian 8 A.alphabetSize ++ littleEndian 8 A.initial := by
    rcases hsmall with hk | hq
    · exact List.mem_append_left _ (zero_mem_littleEndian hk)
    · exact List.mem_append_right _ (zero_mem_littleEndian hq)
  have hlength : (littleEndian 8 A.alphabetSize ++ littleEndian 8 A.initial).length = 16 := by
    rw [List.length_append, length_littleEndian, length_littleEndian]
  rw [printRecord, ← List.append_assoc, List.take_append]
  refine List.mem_append_left _ ?_
  rwa [Automaton.record, List.take_of_length_le (hlength.trans_le hcount)]

end Binary

/-! ## Suggested formats -/

namespace Format

theorem ofHead_encode
    (hbinary : format = .binary → (format.encode A).find? (fun b => !isSpace b) ≠ some 123) :
    ofHead ((format.encode A).take headSize) = format := by
  cases format with
  | text =>
      have hbytes {b : UInt8} (hb : b ∈ (Format.text.encode A).take headSize) :
          Numeral.isDigit b = true ∨ b = 32 ∨ b = 10 :=
        Description.mem_lines (List.mem_of_mem_take hb)
      rw [ofHead, if_neg, if_pos]
      · rw [List.all_eq_true]
        intro b hb
        rcases hbytes hb with hdigit | rfl | rfl
        · simp only [Numeral.isDigit, Bool.and_eq_true, decide_eq_true_eq] at hdigit
          simp only [isGraphic, Bool.or_eq_true, Bool.and_eq_true, decide_eq_true_eq]
          exact .inl ⟨UInt8.le_trans (by decide) hdigit.1, UInt8.le_trans hdigit.2 (by decide)⟩
        · rfl
        · rfl
      · intro hfind
        obtain h | h | h := hbytes (List.mem_of_find?_eq_some hfind) <;> cases h
  | json =>
      have hhead : (Format.json.encode A).take headSize =
          123 :: (Json.fieldBytes A.record).take 511 := by
        rw [encode, pieces, Json.flatten_recordPieces]
        rfl
      rw [hhead, ofHead, if_pos (by rfl)]
  | binary =>
      have hzero : 0 ∈ (Format.binary.encode A).take headSize := by
        rw [encode_binary]
        exact Binary.zero_mem_take_printRecord A (by decide)
      -- The zero is no printed character, so that the bytes are taken for nothing but binary.
      rw [ofHead, if_neg, if_neg]
      · intro hall
        cases List.all_eq_true.1 hall 0 hzero
      · intro hfind
        refine hbinary rfl ?_
        rw [← List.take_append_drop headSize (Format.binary.encode A), List.find?_append, hfind]
        rfl

end Format

namespace Detection

theorem loadAs_encode (htext : format = .text → 3 * A.stateCount * A.alphabetSize < limit) :
    loadAs path (.ok (.ofBytes (format.encode A))) .stateMajor format = .ok A := by
  cases format with
  | text => exact mapError_eq_ok.2 (Description.load_lines (htext rfl) (some path))
  | json =>
      have hread : Json.readRecord (.ofBytes (Format.json.encode A)) = .ok A.record := by
        have hprinted := Json.readRecord_printed A.inRange_record (List.forall_mem_nil _) []
        rwa [List.append_nil, List.nil_append] at hprinted
      rw [loadAs, Format.load_json_of_readRecord hread]
      · rfl
      · nofun
  | binary =>
      have hload : Format.binary.load (.ofBytes (Format.binary.encode A)) = .ok A := by
        refine Format.load_binary_eq_ok.2 ⟨A.finals, [], fun _ => Iff.rfl, A.length_finals_lt, ?_⟩
        rw [List.append_nil]
        exact Format.encode_binary A
      rw [loadAs, hload]
      · rfl
      · nofun

theorem ofContent_ofBytes (path : String) (bs : Bytes) :
    Format.ofContent path (.ok (.ofBytes bs)) = .ok (Format.ofHead (bs.take Format.headSize)) := by
  cases bs <;> rfl

theorem loadByContent_text {bs : Bytes} (layout : Layout)
    (hhead : Format.ofHead (bs.take Format.headSize) = .text) :
    loadByContent path (.ok (.ofBytes bs)) layout =
      (loadAs path (.ok (.ofBytes bs)) layout .text).map fun A => (A, ⟨.text, .content⟩) := by
  rw [loadByContent, tryContent, ofContent_ofBytes, hhead]
  rfl

theorem loadByContent_of_loadAs {bs : Bytes} {layout : Layout}
    (hhead : Format.ofHead (bs.take Format.headSize) = format)
    (hload : loadAs path (.ok (.ofBytes bs)) layout format = .ok A) :
    loadByContent path (.ok (.ofBytes bs)) layout = .ok (A, ⟨format, .content⟩) := by
  by_cases htext : format = .text
  · cases htext
    rw [loadByContent_text layout hhead, hload]
    rfl
  · have hguess : (some format).filter (· ≠ .text) = some format :=
      Option.filter_some_pos (decide_eq_true htext)
    have htried : tryContent path (.ok (.ofBytes bs)) layout =
        some (.ok (A, ⟨format, .content⟩)) := by
      rw [tryContent, ofContent_ofBytes, hhead, Except.toOption, hguess, Option.bind_eq_bind,
        Option.bind_some, hload]
      rfl
    rw [loadByContent, htried, Option.getD_some]

theorem load_text_of_overflow (hpath : Format.ofPath? path = none)
    (hlimit : limit ≤ 3 * (A.stateCount * A.alphabetSize)) :
    load path (.ok (.ofBytes (Format.text.encode A))) none .stateMajor =
      .error (.load (.malformed (.dimensionOverflow A.stateCount A.alphabetSize))) := by
  have hneeded : Layout.stateMajor.needed? A.alphabetSize A.stateCount = none := by
    refine Option.eq_none_iff_forall_ne_some.2 fun m hm => ?_
    exact Nat.not_le_of_lt (Layout.needed?_stateMajor_eq_some.1 hm).1 hlimit
  have hload : Description.load .stateMajor (.ofBytes (Format.text.encode A)) (some path) =
      .error (.malformed (.dimensionOverflow A.stateCount A.alphabetSize)) := by
    refine (Description.load_lines_eq .stateMajor (some path)).trans ?_
    rw [Description.table_of_overflow hneeded]
    rfl
  rw [load]
  simp only [hpath]
  rw [loadByContent_text .stateMajor (Format.ofHead_encode nofun), loadAs, hload]
  rfl

end Detection

/-! ## Commands on a disk -/

namespace Command

/-- What a computation that may complain makes of a disk. -/
def runOn {α : Type} (disk : Disk) (x : ExceptT Complaint (StateM Disk) α) :
    Except Complaint α × Disk := x.run.run disk

variable {disk disk' : Disk}

theorem runOn_store_eq_ok : runOn disk (store A path format) = (.ok (), disk') ↔
    disk.write path (format.encode A) = (.ok (), disk') := by
  refine runIn_store_eq_ok.trans ?_
  constructor
  · rintro ⟨mid, hcreate, hwrite⟩
    exact (Disk.write_of_write hcreate _).symm.trans hwrite
  · intro hwrite
    obtain ⟨place, htarget, _⟩ := Disk.write_eq_ok.1 hwrite
    have hcreate : disk.write path [] = (.ok (), disk.put place (.file [])) :=
      Disk.write_eq_ok.2 ⟨place, htarget, rfl⟩
    exact ⟨_, hcreate, (Disk.write_of_write hcreate _).trans hwrite⟩

theorem runOn_load (path : String) (user : Option Format) (layout : Layout) (disk : Disk) :
    runOn disk (load path user layout) =
      ((Detection.load path (disk.openRead path) user layout).mapError (.automaton path), disk) :=
  rfl

/-- What is stored in a file whose name tells no format is read back from it, unless it is a binary
form that starts like a JSON text. -/
theorem runOn_load_of_store (hpath : Format.ofPath? path = none)
    (htext : format = .text → 3 * A.stateCount * A.alphabetSize < limit)
    (hbinary : format = .binary →
      (format.encode A).find? (fun b => !Format.isSpace b) ≠ some 123)
    (hstore : runOn disk (store A path format) = (.ok (), disk')) :
    runOn disk' (load path none .stateMajor) = (.ok (A, ⟨format, .content⟩), disk') := by
  have hread := Disk.openRead_of_write (runOn_store_eq_ok.1 hstore)
  have hload : Detection.load path (disk'.openRead path) none .stateMajor =
      .ok (A, ⟨format, .content⟩) := by
    rw [hread, Detection.load]
    simp only [hpath]
    exact Detection.loadByContent_of_loadAs (Format.ofHead_encode hbinary)
      (Detection.loadAs_encode htext)
  rw [runOn_load, hload]
  rfl

theorem exists_runOn_store (A : Automaton) (format : Format) :
    ∃ disk, runOn ⟨[], []⟩ (store A "out" format) = (.ok (), disk) := by
  have htarget : Disk.target ⟨[], []⟩ "out" = .ok "/out" := by decide +kernel
  exact ⟨_, runOn_store_eq_ok.2 (Disk.write_eq_ok.2 ⟨_, htarget, rfl⟩)⟩

/-- Four symbols, and so a byte in front that is neither a blank nor a brace. -/
theorem wide_runOn_load :
    Format.ofPath? "out" = none ∧
      (Format.binary.encode .wide).find? (fun b => !Format.isSpace b) ≠ some 123 ∧
        ∃ disk, runOn ⟨[], []⟩ (store .wide "out" .binary) = (.ok (), disk) ∧
          runOn disk (load "out" none .stateMajor) = (.ok (.wide, ⟨.binary, .content⟩), disk) := by
  have hpath : Format.ofPath? "out" = none := by decide +kernel
  have hfirst : (Format.binary.encode .wide).find? (fun b => !Format.isSpace b) ≠ some 123 := by
    decide
  obtain ⟨disk, hstore⟩ := exists_runOn_store .wide .binary
  exact ⟨hpath, hfirst, disk, hstore, runOn_load_of_store hpath nofun (fun _ => hfirst) hstore⟩

end Command

/-- One state, a final one, which all `k` symbols leave in place. -/
def Automaton.loops (k : Nat) (h : k < limit) : Automaton where
  alphabetSize := k
  stateCount := 1
  initial := 0
  finals := [0]
  table := Array.replicate k 0
  initial_lt := Nat.one_pos
  finals_lt := by decide
  finals_ascending := List.pairwise_singleton _ _
  size_table := by rw [Array.size_replicate, Nat.one_mul]
  target_lt := by
    intro t ht
    rw [(Array.mem_replicate.1 ht).2]
    exact Nat.one_pos
  stateCount_lt := by decide
  size_lt := by rwa [Nat.one_mul]

namespace Command

/-- A binary form that starts with a brace, since that is character 123, and a description of more
numbers than can be counted. -/
theorem exists_runOn_load_eq_error :
    Format.ofPath? "out" = none ∧
    (∃ disk, runOn ⟨[], []⟩ (store (.loops 123 (by decide)) "out" .binary) = (.ok (), disk) ∧
      runOn disk (load "out" none .stateMajor) =
        (.error (.automaton "out" (.load (.malformed (.unexpectedEnd .alphabetSize)))), disk)) ∧
    ∃ disk, runOn ⟨[], []⟩ (store (.loops 9223372036854775808 (by decide)) "out" .text) =
        (.ok (), disk) ∧
      runOn disk (load "out" none .stateMajor) = (.error (.automaton "out"
        (.load (.malformed (.dimensionOverflow 1 9223372036854775808)))), disk) := by
  have hpath : Format.ofPath? "out" = none := by decide +kernel
  obtain ⟨disk, hstore⟩ := exists_runOn_store (.loops 123 (by decide)) .binary
  obtain ⟨disk', hstore'⟩ := exists_runOn_store (.loops 9223372036854775808 (by decide)) .text
  refine ⟨hpath, ⟨disk, hstore, ?_⟩, ⟨disk', hstore', ?_⟩⟩
  · have hload : Detection.load "out" (.ok (.ofBytes
        (Format.binary.encode (.loops 123 (by decide))))) none .stateMajor =
          .error (.load (.malformed (.unexpectedEnd .alphabetSize))) := by decide +kernel
    rw [runOn_load, Disk.openRead_of_write (runOn_store_eq_ok.1 hstore), hload]
    rfl
  · rw [runOn_load, Disk.openRead_of_write (runOn_store_eq_ok.1 hstore'),
      Detection.load_text_of_overflow hpath (by decide)]
    rfl

end Command

end FiniteReach
