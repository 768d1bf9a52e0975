import FiniteReach.CommandLine.Outcome
import FiniteReach.Proofs.Trapping

/-!
# Files that cannot be read

A failure to open or to read a file is found again in the failure to load its automaton
(`ioCause?`). It counts as an unreadable file when the file could not be opened or was read as a
description, and as a damaged one when it was read as JSON or in binary
(`unreadable_iff_of_ioCause`).
-/

namespace FiniteReach

variable {path : String} {opened : Except IoFault Source} {layout : Layout} {format : Format}
  {src : Source} {cause : IoFault}

/-! ## What failures go back to -/

/-- The fault of a file or a device that a fault of a description goes back to. -/
def LoadFault.ioCause? : LoadFault → Option IoFault
  | .unreadable _ cause => some cause
  | .malformed _ => none

/-- The fault of a file or a device that a fault of a stored automaton goes back to. That a stored
automaton ends too early is none. -/
def CodecFault.ioCause? : CodecFault → Option IoFault
  | .binary (.io cause) | .json (.io cause) | .unwritten cause => some cause
  | .description fault => fault.ioCause?
  | .binary _ | .json _ | .record _ => none

namespace Failure

/-- The fault of a file or a device that a failure goes back to, whatever it has been wrapped in. -/
def ioCause? : Failure → Option IoFault
  | .load fault => fault.ioCause?
  | .codec fault => fault.ioCause?
  | .word _ | .index _ => none

/-- What a failure of a missing or unreadable file is like. -/
def Unreadable (failure : Failure) : Prop := failure.kind = .unreadable ∧ failure.exitCode = 3

instance (failure : Failure) : Decidable failure.Unreadable :=
  inferInstanceAs (Decidable (_ ∧ _))

theorem unreadable_load {fault : LoadFault} (h : fault.ioCause? = some cause) :
    (Failure.load fault).Unreadable := by
  cases fault with
  | unreadable path cause => exact ⟨rfl, rfl⟩
  | malformed fault => cases h

theorem unreadable_description {fault : LoadFault} (h : fault.ioCause? = some cause) :
    (Failure.codec (.description fault)).Unreadable := by
  cases fault with
  | unreadable path cause => exact ⟨rfl, rfl⟩
  | malformed fault => cases h

theorem not_unreadable {failure : Failure} (h : failure.kind = .malformed) :
    ¬ failure.Unreadable := fun ⟨hkind, _⟩ => nomatch h.symm.trans hkind

end Failure

/-! ## Stored automata -/

namespace Format

/-- A source that fails as a JSON text or in binary does not count as an unreadable file. -/
theorem kind_of_load {fault : CodecFault} (hformat : format ≠ .text)
    (h : format.load src = .error fault) (hcause : fault.ioCause? = some cause) :
    fault.kind = .malformed := by
  cases format with
  | text => exact absurd rfl hformat
  | binary | json =>
      rw [load, bind_eq_error] at h
      simp only [mapError_eq_error] at h
      rcases h with ⟨_, _, rfl⟩ | ⟨_, _, _, _, rfl⟩
      · rfl
      · cases hcause

theorem unreadable_load_iff {fault : CodecFault} (h : format.load src = .error fault)
    (hcause : fault.ioCause? = some cause) :
    (Failure.codec fault).Unreadable ↔ format = .text := by
  by_cases hformat : format = .text
  · subst hformat
    rw [load, mapError_eq_error] at h
    obtain ⟨_, _, rfl⟩ := h
    exact iff_of_true (Failure.unreadable_description hcause) rfl
  · have hkind := kind_of_load hformat h hcause
    exact iff_of_false (Failure.not_unreadable hkind) hformat

end Format

/-! ## Files -/

namespace Detection

theorem unreadable_loadAs_iff {failure : Failure}
    (h : loadAs path opened layout format = .error failure)
    (hcause : failure.ioCause? = some cause) :
    failure.Unreadable ↔ opened.isOk = false ∨ format = .text := by
  cases opened with
  | error fault =>
      cases h
      exact iff_of_true ⟨rfl, rfl⟩ (.inl rfl)
  | ok src =>
      have hopened : ¬ (Except.ok src : Except IoFault Source).isOk = false := nofun
      rw [or_iff_right hopened]
      by_cases hformat : format = .text
      · subst hformat
        rw [loadAs, mapError_eq_error] at h
        obtain ⟨_, _, rfl⟩ := h
        exact iff_of_true (Failure.unreadable_load hcause) rfl
      · rw [loadAs, mapError_eq_error] at h
        · obtain ⟨_, hload, rfl⟩ := h
          have hkind := Format.kind_of_load hformat hload hcause
          exact iff_of_false (Failure.not_unreadable hkind) hformat
        · exact hformat

/-- The format as which a file is read that has no automaton. -/
def binding (path : String) (user : Option Format) : Format :=
  (user <|> Format.ofPath? path).getD .text

theorem loadAs_of_load {user : Option Format} {failure : Failure}
    (h : load path opened user layout = .error failure) (htrap : failure ≠ .trap) :
    loadAs path opened layout (binding path user) = .error failure := by
  cases user with
  | some format => exact map_eq_error.1 h
  | none =>
      cases hpath : Format.ofPath? path with
      | some format =>
          rw [load] at h
          simp only [hpath] at h
          rw [binding, hpath]
          exact map_eq_error.1 h
      | none =>
          rw [load_of_no_extension hpath] at h
          rw [binding, hpath]
          exact loadAs_text_of_loadByContent h htrap

/-- Whatever the source, the path and the ways to find the format, a failure that goes back to a
file or a device counts as an unreadable file exactly if the file could not be opened or was read as
a description. -/
theorem unreadable_iff_of_ioCause (format : Format) (src : Source) (path : String)
    (opened : Except IoFault Source) (user : Option Format) (layout : Layout) (cause : IoFault) :
    (∀ fault : CodecFault, format.load src = .error fault → fault.ioCause? = some cause →
      ((Failure.codec fault).Unreadable ↔ format = .text)) ∧
    (∀ failure : Failure, load path opened user layout = .error failure →
      failure.ioCause? = some cause →
        (failure.Unreadable ↔
          opened.isOk = false ∨ (user <|> Format.ofPath? path).getD .text = .text)) :=
  ⟨fun _ h hcause => Format.unreadable_load_iff h hcause,
    fun _ h hcause => unreadable_loadAs_iff
      (loadAs_of_load h fun htrap => nomatch htrap ▸ hcause) hcause⟩

/-- A directory can be opened, and is then read as a description. -/
theorem directory_unreadable :
    Format.text.load ⟨[], some .isADirectory⟩ =
        .error (.description (.unreadable none .isADirectory)) ∧
      (Failure.codec (.description (.unreadable none .isADirectory))).Unreadable ∧
      load "dir.txt" (.ok ⟨[], some .isADirectory⟩) none .legacy =
        .error (.load (.unreadable (some "dir.txt") .isADirectory)) ∧
      (Failure.load (.unreadable (some "dir.txt") .isADirectory)).Unreadable := by
  have hload : Format.text.load ⟨[], some .isADirectory⟩ =
      .error (.description (.unreadable none .isADirectory)) := by decide +kernel
  have hfile : load "dir.txt" (.ok ⟨[], some .isADirectory⟩) none .legacy =
      .error (.load (.unreadable (some "dir.txt") .isADirectory)) := by decide +kernel
  obtain ⟨hsource, hpath⟩ := unreadable_iff_of_ioCause .text ⟨[], some .isADirectory⟩ "dir.txt"
    (.ok ⟨[], some .isADirectory⟩) none .legacy .isADirectory
  exact ⟨hload, (hsource _ hload rfl).2 rfl, hfile,
    (hpath _ hfile rfl).2 (.inr (by decide +kernel))⟩

/-- The same directory under another name, which is then read as JSON, and sources that fail under
the JSON and the binary format. -/
theorem directory_malformed :
    (∃ (disk : Disk) (failure : Failure),
      load "dir.json" (disk.openRead "dir.json") none .stateMajor = .error failure ∧
        failure.ioCause? = some .isADirectory ∧ failure.kind = .malformed ∧
        failure.exitCode = 4 ∧
        ((CommandLine.Program.tool.run none ["info", "-a", "dir.json"] : StateM Disk _).run
          disk).1.exitCode = 4) ∧
    (∃ fault, Format.json.load ⟨[123], some .isADirectory⟩ = .error fault ∧
      fault.ioCause? = some .isADirectory ∧ (Failure.codec fault).kind = .malformed) ∧
    ∃ fault, Format.binary.load ⟨[], some .isADirectory⟩ = .error fault ∧
      fault.ioCause? = some .isADirectory ∧ (Failure.codec fault).kind = .malformed := by
  refine ⟨⟨⟨[("/dir.json", .directory)], []⟩, .codec (.json (.io .isADirectory)), ?_, rfl, rfl, rfl,
    ?_⟩, ⟨.json (.io .isADirectory), ?_, rfl, rfl⟩, ⟨.binary (.io .isADirectory), ?_, rfl, rfl⟩⟩
  · decide +kernel
  · decide +kernel
  · decide +kernel
  · decide +kernel

end Detection

end FiniteReach
