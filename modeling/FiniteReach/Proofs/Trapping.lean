import FiniteReach.Detection
import FiniteReach.Proofs.Binary

/-!
# Files that make the machine trap

Nothing but a stored record whose table cannot be allocated makes the machine trap while a file is
loaded. It does so under the format that is tried first, whether that is binding or a guess
(`load_eq_trap_iff`): a trap is no failure that a guess gets over.
-/

namespace FiniteReach

variable {path : String} {opened : Except IoFault Source} {layout : Layout} {format : Format}
  {src : Source} {A : Automaton} {detection : Detection} {user : Option Format} {failure : Failure}

/-! ## Failures that are traps -/

/-- What is reported of a stored record whose table cannot be allocated. -/
def Failure.trap : Failure := .codec (.record .trap)

theorem Failure.kind_eq_trapped_iff : failure.kind = .trapped ↔ failure = .trap := by
  constructor
  · intro h
    cases failure with
    | load fault => cases fault <;> cases h
    | word fault => cases h
    | index fault => cases h
    | codec fault =>
        cases fault with
        | binary cause => cases h
        | json cause => cases h
        | unwritten cause => cases h
        | description fault => cases fault <;> cases h
        | record cause =>
            cases cause with
            | trap => rfl
            | fault fault => cases h
  · rintro rfl
    rfl

/-! ## Stored records -/

/-- A source holds a record in a format. -/
inductive Format.Records : Format → Source → Record → Prop where
  | binary {src : Source} {r : Record} : Binary.readRecord src = .ok r → Records .binary src r
  | json {src : Source} {r : Record} : Json.readRecord src = .ok r → Records .json src r

theorem Format.load_of_records {r : Record} (h : format.Records src r) :
    format.load src = r.automaton?.mapError .record := by
  cases h with
  | binary h =>
      rw [load, h]
      rfl
  | json h =>
      rw [load, h]
      rfl

theorem Format.load_eq_trap_iff : format.load src = .error (.record .trap) ↔
    ∃ r, format.Records src r ∧ ¬ r.Allocates := by
  constructor
  · intro h
    obtain ⟨r, hr, h⟩ : ∃ r, format.Records src r ∧
        (r.automaton?.mapError .record : Except CodecFault Automaton) = .error (.record .trap) := by
      cases format with
      | text =>
          obtain ⟨_, _, hfault⟩ := mapError_eq_error.1 h
          cases hfault
      | binary =>
          rcases bind_eq_error.1 h with h | ⟨r, hr, h⟩
          · obtain ⟨_, _, hfault⟩ := mapError_eq_error.1 h
            cases hfault
          · exact ⟨r, .binary (mapError_eq_ok.1 hr), h⟩
      | json =>
          rcases bind_eq_error.1 h with h | ⟨r, hr, h⟩
          · obtain ⟨_, _, hfault⟩ := mapError_eq_error.1 h
            cases hfault
          · exact ⟨r, .json (mapError_eq_ok.1 hr), h⟩
    obtain ⟨cause, hcause, htrap⟩ := mapError_eq_error.1 h
    cases htrap
    exact ⟨r, hr, Record.automaton?_eq_trap_iff.1 hcause⟩
  · rintro ⟨r, hr, hallocates⟩
    rw [load_of_records hr, Record.automaton?_eq_trap_iff.2 hallocates]
    rfl

/-! ## Files -/

namespace Detection

theorem loadAs_eq_trap_iff : loadAs path opened layout format = .error .trap ↔
    ∃ src r, opened = .ok src ∧ format.Records src r ∧ ¬ r.Allocates := by
  cases opened with
  | error cause => exact iff_of_false nofun fun ⟨_, _, h, _⟩ => nomatch h
  | ok src =>
      have hstored (hformat : format ≠ .text) :
          loadAs path (.ok src) layout format = .error .trap ↔
            format.load src = .error (.record .trap) := by
        rw [loadAs, mapError_eq_error]
        · constructor
          · rintro ⟨fault, hload, hfault⟩
            cases hfault
            exact hload
          · intro hload
            exact ⟨_, hload, rfl⟩
        · exact hformat
      cases format with
      | text =>
          refine iff_of_false (fun h => ?_) fun ⟨_, _, _, h, _⟩ => nomatch h
          obtain ⟨_, _, hfault⟩ := mapError_eq_error.1 h
          cases hfault
      | binary =>
          rw [hstored nofun, Format.load_eq_trap_iff]
          simp
      | json =>
          rw [hstored nofun, Format.load_eq_trap_iff]
          simp

theorem suggested_iff : (Format.ofContent path opened).toOption.filter (· ≠ .text) = some format ↔
    Format.ofContent path opened = .ok format ∧ format ≠ .text := by
  rw [Option.filter_eq_some_iff, toOption_eq_some, decide_eq_true_eq]

theorem tryContent_eq_ok_iff : tryContent path opened layout = some (.ok (A, detection)) ↔
    Format.ofContent path opened = .ok detection.format ∧ detection.format ≠ .text ∧
      detection.method = .content ∧ loadAs path opened layout detection.format = .ok A := by
  rw [tryContent, Option.bind_eq_bind, Option.bind_eq_some_iff]
  constructor
  · rintro ⟨format, hformat, h⟩
    obtain ⟨hcontent, htext⟩ := suggested_iff.1 hformat
    split at h
    · next hload =>
        cases h
        exact ⟨hcontent, htext, rfl, hload⟩
    · split at h <;> cases h
  · rintro ⟨hcontent, htext, hmethod, hload⟩
    refine ⟨detection.format, suggested_iff.2 ⟨hcontent, htext⟩, ?_⟩
    rw [hload, ← hmethod]
    rfl

theorem tryContent_eq_error_iff : tryContent path opened layout = some (.error failure) ↔
    failure = .trap ∧ ∃ format, Format.ofContent path opened = .ok format ∧
      loadAs path opened layout format = .error .trap := by
  rw [tryContent, Option.bind_eq_bind, Option.bind_eq_some_iff]
  constructor
  · rintro ⟨format, hformat, h⟩
    split at h
    · cases h
    · next hload =>
        split at h
        · next hkind =>
            cases h
            cases Failure.kind_eq_trapped_iff.1 hkind
            exact ⟨rfl, format, (suggested_iff.1 hformat).1, hload⟩
        · cases h
  · rintro ⟨rfl, format, hcontent, hload⟩
    have htext : format ≠ .text := by
      rintro rfl
      obtain ⟨_, _, _, h, _⟩ := loadAs_eq_trap_iff.1 hload
      cases h
    refine ⟨format, suggested_iff.2 ⟨hcontent, htext⟩, ?_⟩
    rw [hload]
    rfl

/-- In the format that is tried first, a file holds a record whose table cannot be allocated. -/
def Traps (path : String) (opened : Except IoFault Source) (user : Option Format) : Prop :=
  ∃ src detection r, opened = .ok src ∧ detect path opened user = .ok detection ∧
    detection.format.Records src r ∧ ¬ r.Allocates

theorem traps_iff (layout : Layout) : Traps path opened user ↔
    ∃ detection, detect path opened user = .ok detection ∧
      loadAs path opened layout detection.format = .error .trap := by
  simp only [Traps, loadAs_eq_trap_iff]
  constructor
  · rintro ⟨src, detection, r, hopened, hdetect, h⟩
    exact ⟨detection, hdetect, src, r, hopened, h⟩
  · rintro ⟨detection, hdetect, src, r, hopened, h⟩
    exact ⟨src, detection, r, hopened, hdetect, h⟩

theorem loadByContent_eq_trap_iff : loadByContent path opened layout = .error .trap ↔
    ∃ format, Format.ofContent path opened = .ok format ∧
      loadAs path opened layout format = .error .trap := by
  rw [loadByContent]
  cases htried : tryContent path opened layout with
  | none =>
      refine iff_of_false (fun h => ?_) fun h => ?_
      · obtain ⟨_, _, _, htext, _⟩ := loadAs_eq_trap_iff.1 (map_eq_error.1 h)
        cases htext
      · cases htried.symm.trans (tryContent_eq_error_iff.2 ⟨rfl, h⟩)
  | some result =>
      rw [Option.getD_some]
      cases result with
      | ok loaded =>
          refine iff_of_false nofun fun h => ?_
          cases htried.symm.trans (tryContent_eq_error_iff.2 ⟨rfl, h⟩)
      | error failure =>
          obtain ⟨rfl, h⟩ := tryContent_eq_error_iff.1 htried
          exact iff_of_true rfl h

theorem load_of_no_extension (hpath : Format.ofPath? path = none) :
    load path opened none layout = loadByContent path opened layout := by
  rw [load]
  simp only [hpath]

theorem load_eq_trap_iff :
    load path opened user layout = .error .trap ↔ Traps path opened user := by
  have hbinding {format : Format} {method : Method}
      (hdetect : detect path opened user = .ok ⟨format, method⟩) :
      (loadAs path opened layout format).map (·, (⟨format, method⟩ : Detection)) = .error .trap ↔
        Traps path opened user := by
    rw [map_eq_error, traps_iff layout, hdetect]
    simp
  cases user with
  | some format => exact hbinding rfl
  | none =>
      cases hpath : Format.ofPath? path with
      | some format =>
          rw [load]
          simp only [hpath]
          refine hbinding ?_
          rw [detect]
          simp only [hpath]
      | none =>
          rw [load_of_no_extension hpath, loadByContent_eq_trap_iff, traps_iff layout,
            detect]
          simp only [hpath, map_eq_ok, exists_exists_and_eq_and]

/-- A failure that is no trap is what is wrong with the file as a description. -/
theorem loadAs_text_of_loadByContent (h : loadByContent path opened layout = .error failure)
    (htrap : failure ≠ .trap) : loadAs path opened layout .text = .error failure := by
  rw [loadByContent] at h
  cases htried : tryContent path opened layout with
  | none =>
      rw [htried] at h
      exact map_eq_error.1 h
  | some result =>
      rw [htried, Option.getD_some] at h
      subst h
      exact absurd (tryContent_eq_error_iff.1 htried).1 htrap

end Detection

end FiniteReach
