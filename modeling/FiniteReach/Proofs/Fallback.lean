import FiniteReach.Proofs.Conversion
import FiniteReach.Proofs.DigitRuns
import FiniteReach.Proofs.Unreadable

/-!
# Guesses and what is done without them

The format that is reported with an automaton is one that its file is read as (`loadAs_of_load_eq_ok`),
and a guess that fails makes no difference to a file that is read as a description, as long as the
machine does not trap in it (`load_fallback`).
A guess looks at the first bytes only: where blanks fill them, a JSON text is not found behind
(`load_after_blanks`).
-/

namespace FiniteReach

open FileSystem

variable {σ : Type} [FileSystem (StateM σ)] {s : σ} {path : String} {layout : Layout} {A : Automaton}

/-! ## Formats that are reported -/

/-- The automaton that the file of a path describes. -/
def Description.ofFile (path : String) (opened : Except IoFault Source) (layout : Layout) :
    Except LoadFault Automaton :=
  match opened with
  | .error cause => .error (.unreadable (some path) cause)
  | .ok src => load layout src (some path)

namespace Detection

variable {opened : Except IoFault Source} {detection : Detection} {user : Option Format}

theorem loadAs_text : loadAs path opened layout .text =
    (Description.ofFile path opened layout).mapError .load := by
  cases opened with
  | error cause => rfl
  | ok src => rfl

theorem loadAs_of_map {format : Format} {method : Method}
    (h : ((loadAs path opened layout format).map (·, (⟨format, method⟩ : Detection))) =
      .ok (A, detection)) : loadAs path opened layout detection.format = .ok A := by
  obtain ⟨A', hload, heq⟩ := map_eq_ok.1 h
  cases heq
  exact hload

theorem loadAs_of_loadByContent_eq_ok (h : loadByContent path opened layout = .ok (A, detection)) :
    loadAs path opened layout detection.format = .ok A := by
  rw [loadByContent] at h
  cases htried : tryContent path opened layout with
  | none =>
      rw [htried] at h
      exact loadAs_of_map h
  | some result =>
      rw [htried, Option.getD_some] at h
      subst h
      exact (tryContent_eq_ok_iff.1 htried).2.2.2

theorem loadAs_of_load_eq_ok (h : load path opened user layout = .ok (A, detection)) :
    loadAs path opened layout detection.format = .ok A := by
  cases user with
  | some format => exact loadAs_of_map h
  | none =>
      cases hpath : Format.ofPath? path with
      | some format =>
          rw [load] at h
          simp only [hpath] at h
          exact loadAs_of_map h
      | none =>
          rw [load_of_no_extension hpath] at h
          exact loadAs_of_loadByContent_eq_ok h

/-- A file that is a description is found to be one, if nothing else. -/
theorem exists_loadByContent (h : loadAs path opened layout .text = .ok A)
    (htrap : loadByContent path opened layout ≠ .error .trap) :
    ∃ loaded, loadByContent path opened layout = .ok loaded := by
  cases hload : loadByContent path opened layout with
  | ok loaded => exact ⟨loaded, rfl⟩
  | error failure =>
      have hfailure : failure ≠ .trap := by
        rintro rfl
        exact htrap hload
      cases h.symm.trans (loadAs_text_of_loadByContent hload hfailure)

end Detection

namespace Command

variable [QuietFileSystem σ]

/-- A file is read alike under the format that was reported for it. Where nothing but its content
tells the format, it is read if it is a description, and otherwise what is wrong is what is wrong
with the description. But if the guess comes to a record whose table cannot be allocated, the machine
traps, whether or not the file is a description. -/
theorem load_fallback (path : String) (user : Option Format) (layout : Layout) (s : σ) :
    (∀ A detection s', runIn s (load path user layout) = (.ok (A, detection), s') →
      runIn s' (load path (some detection.format) layout) =
        (.ok (A, ⟨detection.format, .user⟩), s')) ∧
    (Format.ofPath? path = none →
      (runIn s (load path none layout) = (.error (.automaton path .trap), s) ↔
        Detection.Traps path (opened s path) none) ∧
      (¬ Detection.Traps path (opened s path) none →
        (∀ A, Description.ofFile path (opened s path) layout = .ok A →
          ∃ B detection, runIn s (load path none layout) = (.ok (B, detection), s)) ∧
        ∀ complaint s', runIn s (load path none layout) = (.error complaint, s') →
          ∃ fault, Description.ofFile path (opened s path) layout = .error fault ∧
            complaint = .automaton path (.load fault))) := by
  refine ⟨fun A detection s' h => ?_, fun hpath => ?_⟩
  · rw [runIn_load, Prod.ext_iff] at h
    obtain ⟨hload, rfl⟩ := h
    have hformat := Detection.loadAs_of_load_eq_ok (mapError_eq_ok.1 hload)
    rw [runIn_load, Detection.load, hformat]
    rfl
  · have htraps : Detection.loadByContent path (opened s path) layout = .error .trap ↔
        Detection.Traps path (opened s path) none := by
      rw [← Detection.load_of_no_extension hpath, Detection.load_eq_trap_iff]
    simp only [runIn_load, Detection.load_of_no_extension hpath]
    refine ⟨?_, fun htrap => ⟨fun A hA => ?_, fun complaint s' h => ?_⟩⟩
    · rw [← htraps, Prod.ext_iff, mapError_eq_error]
      simp
    · obtain ⟨⟨B, detection⟩, hload⟩ := Detection.exists_loadByContent
        (Detection.loadAs_text.trans (mapError_eq_ok.2 hA)) (mt htraps.1 htrap)
      exact ⟨B, detection, by rw [hload]; rfl⟩
    · obtain ⟨failure, hload, rfl⟩ := mapError_eq_error.1 (Prod.ext_iff.1 h).1
      have hfailure : failure ≠ .trap := by
        rintro rfl
        exact htrap (htraps.1 hload)
      have htext := Detection.loadAs_text_of_loadByContent hload hfailure
      rw [Detection.loadAs_text] at htext
      obtain ⟨fault, hfault, rfl⟩ := mapError_eq_error.1 htext
      exact ⟨fault, hfault, rfl⟩

/-- Descriptions in braces, which are taken for JSON at first; of the second only the half is
there. -/
theorem braces_fallback :
    ∃ disk : Disk, Format.ofPath? "whole" = none ∧ Format.ofPath? "half" = none ∧
      (∃ A, runIn disk (load "whole" none .stateMajor) = (.ok (A, ⟨.text, .content⟩), disk) ∧
        runIn disk (load "whole" (some .text) .stateMajor) = (.ok (A, ⟨.text, .user⟩), disk)) ∧
      (∃ A detection, runIn disk (load "whole" none .legacy) = (.ok (A, detection), disk)) ∧
      ∃ fault, runIn disk (load "half" none .stateMajor) =
        (.error (.automaton "half" (.load fault)), disk) ∧
        Description.ofFile "half" (opened disk "half") .stateMajor = .error fault := by
  let disk : Disk := ⟨[("/whole", .file (Text.utf8 "\x7b1 1 0 1 0 (0 0 0)\x7d")),
    ("/half", .file (Text.utf8 "\x7b1 1 0"))], []⟩
  have hwhole : Format.ofPath? "whole" = none := by decide +kernel
  have hhalf : Format.ofPath? "half" = none := by decide +kernel
  have hread : runIn disk (load "whole" none .stateMajor) =
      (.ok (.loops 1 (by decide), ⟨.text, .content⟩), disk) := by decide +kernel
  have hlegacy : Description.ofFile "whole" (opened disk "whole") .legacy =
      .ok (.loops 1 (by decide)) := by decide +kernel
  have hrefused : runIn disk (load "half" none .stateMajor) =
      (.error (.automaton "half" (.load (.malformed (.unexpectedEnd .finalStateCount)))), disk) := by
    decide +kernel
  obtain ⟨hagain, hguess⟩ := load_fallback "whole" none .stateMajor disk
  have hnotrap : ¬ Detection.Traps "whole" (opened disk "whole") none := fun htraps =>
    nomatch hread.symm.trans ((hguess hwhole).1.2 htraps)
  obtain ⟨htrapped, hfallback⟩ := (load_fallback "half" none .stateMajor disk).2 hhalf
  have hnotrap' : ¬ Detection.Traps "half" (opened disk "half") none := fun htraps =>
    nomatch hrefused.symm.trans (htrapped.2 htraps)
  obtain ⟨fault, hfault, hcomplaint⟩ := (hfallback hnotrap').2 _ _ hrefused
  refine ⟨disk, hwhole, hhalf, ⟨_, hread, hagain _ _ _ hread⟩, ?_, fault, ?_, hfault⟩
  · exact (((load_fallback "whole" none .legacy disk).2 hwhole).2 hnotrap).1 _ hlegacy
  · rw [hrefused, hcomplaint]

/-- A description in the legacy layout that is also a JSON text. The guess is a record whose table
cannot be allocated, and the description is not tried. -/
theorem oversized_fallback :
    ∃ (disk : Disk) (A : Automaton), Format.ofPath? "big" = none ∧
      opened disk "big" = .ok (.ofBytes (Text.utf8 ("\x7b\"initial_state\": 0, " ++
        "\"final_states\": [5, 0, 0], \"alphabet_size\": 1152921504606846976, " ++
        "\"transitions\": [[]]\x7d"))) ∧
      Description.ofFile "big" (opened disk "big") .legacy = .ok A ∧
      runIn disk (load "big" none .legacy) = (.error (.automaton "big" .trap), disk) := by
  refine ⟨⟨[("/big", .file (Text.utf8 ("\x7b\"initial_state\": 0, " ++
      "\"final_states\": [5, 0, 0], \"alphabet_size\": 1152921504606846976, " ++
      "\"transitions\": [[]]\x7d")))], []⟩,
    ⟨0, 5, 0, [], #[], by decide, by decide, by decide, rfl, nofun, by decide, by decide⟩, ?_, ?_,
    ?_, ?_⟩
  · decide +kernel
  · decide +kernel
  · decide +kernel
  · decide +kernel

end Command

/-! ## Blanks before a JSON text -/

namespace Json

theorem isDigit_of_isBlank {b : UInt8} (h : isBlank b = true) : Numeral.isDigit b = false := by
  refine Bool.eq_false_iff.2 fun hdigit => ?_
  cases h.symm.trans (Reader.minus_and_blank_of_isDigit hdigit).2

theorem isDigit_of_mem_indent {level : Nat} {b : UInt8} (h : b ∈ indent level) :
    Numeral.isDigit b = false := isDigit_of_isBlank (isBlank_of_mem_indent h)

/-- A number in an object is a digit run of its own. -/
theorem runs_inside_entry (level n : Nat) (first : Bool) {key : String} (parts : List Bytes)
    (hkey : ∀ b ∈ (Text.utf8 key).flatMap Print.escapedByte, Numeral.isDigit b = false) :
    Numeral.runs (inside level 125 first (Reader.entryBytes key (Print.natural n).flatten :: parts)) =
      Numeral.digits n :: Numeral.runs (inside level 125 false parts) := by
  let before := (if first then [] else [44]) ++ indent (level + 1) ++
    34 :: ((Text.utf8 key).flatMap Print.escapedByte ++ [34, 58, 32])
  have hbefore : ∀ b ∈ before, Numeral.isDigit b = false := by
    intro b hb
    simp only [before, List.mem_append, List.mem_cons] at hb
    rcases hb with (hb | hb) | rfl | hb | hb
    · cases first with
      | true => cases hb
      | false =>
          cases List.mem_singleton.1 hb
          rfl
    · exact isDigit_of_mem_indent hb
    · rfl
    · exact hkey b hb
    · rcases hb with rfl | rfl | rfl | hb
      · rfl
      · rfl
      · rfl
      · cases hb
  have hsplit : inside level 125 first (Reader.entryBytes key (Print.natural n).flatten :: parts) =
      before ++ (Numeral.digits n ++ inside level 125 false parts) := by
    simp [inside, before, Reader.entryBytes, Print.natural]
  obtain ⟨b, rest, hrest, hb⟩ := ends_inside level 125 parts []
  have hend : Numeral.isDigit b = false := by
    rcases hb with rfl | rfl <;> rfl
  rw [List.append_nil] at hrest
  rw [hsplit, Numeral.runs_append_of_separators hbefore, hrest,
    Numeral.runs_append_separator hend, Numeral.runs_digits, Numeral.runs_cons_separator hend]
  rfl

theorem exists_runs_encode {blanks : Bytes} (hblanks : ∀ b ∈ blanks, isBlank b = true)
    (A : Automaton) : ∃ rest, Numeral.runs (blanks ++ Format.json.encode A) =
      Numeral.digits A.alphabetSize :: Numeral.digits A.initial :: rest := by
  obtain ⟨parts, hparts⟩ : ∃ parts, fieldBytes A.record = inside 0 125 true
      (Reader.entryBytes "alphabet_size" (Print.natural A.alphabetSize).flatten ::
        Reader.entryBytes "initial_state" (Print.natural A.initial).flatten :: parts) := ⟨_, rfl⟩
  refine ⟨Numeral.runs (inside 0 125 false parts), ?_⟩
  rw [Numeral.runs_append_of_separators fun b hb => isDigit_of_isBlank (hblanks b hb),
    Format.encode, Format.pieces, flatten_recordPieces, Numeral.runs_cons_separator (by rfl), hparts,
    runs_inside_entry 0 _ true _ (by decide +kernel),
    runs_inside_entry 0 _ false _ (by decide +kernel)]

/-- Taken for a description, a JSON text has the number of the initial state where the number of
states should be. -/
theorem stateCount_of_load_encode {blanks : Bytes} {B : Automaton} {name : Option String}
    (hblanks : ∀ b ∈ blanks, isBlank b = true)
    (h : Description.load layout (.ofBytes (blanks ++ Format.json.encode A)) name = .ok B) :
    B.stateCount = A.initial := by
  obtain ⟨header, flat, hnumbers, htable⟩ := Description.load_eq_ok.1 h
  obtain ⟨found, hparted, _, hvalues⟩ := Source.numbers_eq_iff.1 hnumbers
  obtain ⟨rest, hruns⟩ := exists_runs_encode hblanks A
  rw [← hparted.runs_eq, hruns] at hvalues
  simp only [List.map_cons, Numeral.value_digits, Description.Header.numbers, List.cons_append,
    List.cons.injEq] at hvalues
  obtain ⟨_, hcount, _⟩ := Description.table_eq_ok.1 htable
  exact hcount.trans hvalues.2.1.symm

end Json

namespace Format

theorem isSpace_of_isBlank {b : UInt8} (h : Json.isBlank b = true) : isSpace b = true := by
  simp only [Json.isBlank, Bool.or_eq_true, decide_eq_true_eq] at h
  obtain ((rfl | rfl) | rfl) | rfl := h <;> rfl

variable {blanks : Bytes}

theorem find?_blanks (hblanks : ∀ b ∈ blanks, Json.isBlank b = true) :
    blanks.find? (fun b => !isSpace b) = none :=
  List.find?_eq_none.2 fun b hb => by simp [isSpace_of_isBlank (hblanks b hb)]

theorem ofHead_take_of_lt (hblanks : ∀ b ∈ blanks, Json.isBlank b = true)
    (hshort : blanks.length < headSize) (A : Automaton) :
    ofHead ((blanks ++ json.encode A).take headSize) = .json := by
  obtain ⟨count, hcount⟩ := Nat.exists_eq_add_of_lt hshort
  rw [encode, pieces, Json.flatten_recordPieces, hcount, Nat.add_assoc, List.take_length_add_append,
    List.take_succ_cons, ofHead, List.find?_append, find?_blanks hblanks, if_pos (by rfl)]

theorem ofHead_take_of_le (hblanks : ∀ b ∈ blanks, Json.isBlank b = true)
    (hlong : headSize ≤ blanks.length) (rest : Bytes) :
    ofHead ((blanks ++ rest).take headSize) = .text := by
  have hhead : ∀ b ∈ blanks.take headSize, Json.isBlank b = true :=
    fun b hb => hblanks b (List.mem_of_mem_take hb)
  rw [List.take_append_of_le_length hlong, ofHead, find?_blanks hhead, if_neg (by simp), if_pos]
  exact List.all_eq_true.2 fun b hb => by simp [isSpace_of_isBlank (hhead b hb)]

theorem load_json_of_blanks (hblanks : ∀ b ∈ blanks, Json.isBlank b = true) (A : Automaton) :
    Format.json.load (.ofBytes (blanks ++ json.encode A)) = .ok A := by
  have hread := Json.readRecord_printed A.inRange_record hblanks []
  rw [List.append_nil] at hread
  exact load_json_of_readRecord hread

end Format

namespace Command

variable [QuietFileSystem σ] {blanks : Bytes}

/-- Behind fewer blanks than are looked at, a JSON text is found and read. Behind more it is taken for
a description, and that is never one of the same automaton. -/
theorem load_after_blanks (layout : Layout) (hpath : Format.ofPath? path = none)
    (hblanks : ∀ b ∈ blanks, Json.isBlank b = true)
    (hopened : opened s path = .ok (.ofBytes (blanks ++ Format.json.encode A))) :
    (blanks.length < Format.headSize →
      runIn s (load path none layout) = (.ok (A, ⟨.json, .content⟩), s)) ∧
    (Format.headSize ≤ blanks.length → ∀ B detection s',
      runIn s (load path none layout) = (.ok (B, detection), s') →
        detection = ⟨.text, .content⟩ ∧ B ≠ A) := by
  rw [runIn_load, hopened, Detection.load_of_no_extension hpath]
  constructor
  · intro hshort
    have hload : Detection.loadAs path (.ok (.ofBytes (blanks ++ Format.json.encode A))) layout
        .json = .ok A := mapError_eq_ok.2 (Format.load_json_of_blanks hblanks A)
    rw [Detection.loadByContent_of_loadAs (Format.ofHead_take_of_lt hblanks hshort A) hload]
    rfl
  · intro hlong B detection s' h
    rw [Detection.loadByContent_text layout (Format.ofHead_take_of_le hblanks hlong _),
      Prod.ext_iff, mapError_eq_ok, map_eq_ok] at h
    obtain ⟨⟨B', hload, heq⟩, _⟩ := h
    cases heq
    -- What is read has fewer states than the automaton has: its initial state counts them.
    refine ⟨rfl, ?_⟩
    rintro rfl
    have hcount := Json.stateCount_of_load_encode hblanks (mapError_eq_ok.1 hload)
    exact Nat.ne_of_gt B.initial_lt hcount

end Command

/-- Six states and one symbol, which leads from the second state to the first in three steps. -/
def Automaton.lasso : Automaton where
  alphabetSize := 1
  stateCount := 6
  initial := 1
  finals := [0, 1]
  table := #[0, 2, 3, 0, 5, 4]
  initial_lt := by decide
  finals_lt := by decide
  finals_ascending := by decide
  size_table := by decide
  target_lt := by decide
  stateCount_lt := by decide
  size_lt := by decide

namespace Command

/-- An automaton behind two blanks, and behind so many that another one is read. -/
theorem lasso_load_after_blanks :
    ∃ disk : Disk,
      runIn disk (load "near" none .legacy) = (.ok (.lasso, ⟨.json, .content⟩), disk) ∧
      ∃ B, runIn disk (load "far" none .legacy) = (.ok (B, ⟨.text, .content⟩), disk) ∧
        B ≠ .lasso := by
  let disk : Disk := ⟨[("/near", .file ([32, 10] ++ Format.json.encode .lasso)),
    ("/far", .file (List.replicate 513 9 ++ Format.json.encode .lasso))], []⟩
  have hnear : opened disk "near" = .ok (.ofBytes ([32, 10] ++ Format.json.encode .lasso)) := by
    decide +kernel
  have hfar : opened disk "far" =
      .ok (.ofBytes (List.replicate 513 9 ++ Format.json.encode .lasso)) := by decide +kernel
  obtain ⟨B, hB⟩ : ∃ B, runIn disk (load "far" none .legacy) =
      (.ok (B, ⟨.text, .content⟩), disk) :=
    ⟨⟨1, 1, 0, [0], #[0], by decide, by decide, by decide, rfl, by decide, by decide, by decide⟩,
      by decide +kernel⟩
  have hblanks : ∀ b ∈ List.replicate 513 9, Json.isBlank b = true := by
    intro b hb
    rw [List.eq_of_mem_replicate hb]
    rfl
  have hfound := (load_after_blanks .legacy (by decide +kernel) (by simp [Json.isBlank]) hnear).1
    (by decide)
  obtain ⟨_, hne⟩ := (load_after_blanks .legacy (by decide +kernel) hblanks hfar).2
    (by decide +kernel) B _ _ hB
  exact ⟨disk, hfound, B, hB, hne⟩

end Command

/-- Five states and no symbol. -/
def Automaton.inert : Automaton where
  alphabetSize := 0
  stateCount := 5
  initial := 4
  finals := [0, 1, 3]
  table := #[]
  initial_lt := by decide
  finals_lt := by decide
  finals_ascending := by decide
  size_table := by decide
  target_lt := by decide
  stateCount_lt := by decide
  size_lt := by decide

namespace Command

/-- As many blanks as are looked at hide a JSON text, which passes for a description of four
states. -/
theorem inert_behind_blanks :
    ∃ (disk : Disk) (B : Automaton), Format.ofPath? "a" = none ∧
      opened disk "a" = .ok (.ofBytes (List.replicate 512 32 ++ Format.json.encode .inert)) ∧
      (∀ b ∈ List.replicate 512 32, Json.isBlank b = true) ∧
      runIn disk (load "a" none .stateMajor) = (.ok (B, ⟨.text, .content⟩), disk) ∧
      B.stateCount = 4 ∧ Automaton.inert.stateCount = 5 := by
  let disk : Disk := ⟨[("/a", .file (List.replicate 512 32 ++ Format.json.encode .inert))], []⟩
  refine ⟨disk, ⟨0, 4, 0, [3], #[], by decide, by decide, by decide, rfl, nofun, by decide,
    by decide⟩, by decide +kernel, by decide +kernel, fun b hb => ?_, by decide +kernel, rfl, rfl⟩
  rw [List.eq_of_mem_replicate hb]
  rfl

end Command

end FiniteReach
