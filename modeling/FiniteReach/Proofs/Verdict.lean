import FiniteReach.Proofs.Check
import FiniteReach.Proofs.Conversion

/-!
# Verdicts before and after a conversion

What a check answers depends on the words and on the automaton that its selection finds, wherever
that is stored (`Finds.run_check_eq`). A conversion does not look at the settings: it reads a
description in the layout that it is given, or else state by state. So a check of what it has written
answers what a check of the input answers in that layout (`check_after_convert`).
-/

namespace FiniteReach

open FileSystem

variable {σ : Type} [FileSystem (StateM σ)] {A : Automaton} {home named : Option String}
  {input output path : String} {layout : Option Layout} {s s' : σ} {settings settings' : Settings}

namespace Detection

/-- The layout matters to descriptions only. -/
theorem loadAs_of_ne_text {opened : Except IoFault Source} {format : Format} (h : format ≠ .text)
    (layout layout' : Layout) :
    loadAs path opened layout format = loadAs path opened layout' format := by
  cases opened with
  | error cause => rfl
  | ok src =>
      cases format with
      | text => exact absurd rfl h
      | json => rfl
      | binary => rfl

theorem load_json_encode (hpath : Format.ofPath? path = some .json) (layout : Layout) :
    load path (.ok (.ofBytes (Format.json.encode A))) none layout =
      .ok (A, ⟨.json, .extension⟩) := by
  have hencode : loadAs path (.ok (.ofBytes (Format.json.encode A))) .stateMajor .json = .ok A :=
    loadAs_encode (by nofun)
  rw [load]
  simp only [hpath]
  rw [loadAs_of_ne_text (by decide) layout .stateMajor, hencode]
  rfl

end Detection

namespace Command

section Quiet

variable [QuietFileSystem σ] {selection selection' : Selection}

theorem Finds.run_check_eq (h : Finds home named selection s A)
    (h' : Finds home named selection' s' A) (first second : String) :
    (((check first second selection).run home named : StateM σ _).run s).1 =
      (((check first second selection').run home named : StateM σ _).run s').1 := by
  rw [run_check, run_check, h.runIn_decision, h'.runIn_decision]
  cases (do let u ← (Word.parse first).mapError (.word .first first)
            let v ← (Word.parse second).mapError (.word .second second)
            (A.acceptable u v).mapError .run : Except Complaint Bool) with
  | ok b => rfl
  | error complaint => rfl

/-- A check reads a file as a conversion does if it comes to the same layout. -/
theorem Reads.finds {wish : Option Layout} (hsettings : consulted home named s = .ok settings)
    (hlayout : (wish <|> settings.layout).getD .stateMajor = layout.getD .stateMajor)
    (h : Reads A s input none layout) : Finds home named ⟨some input, wish, none⟩ s A := by
  obtain ⟨detection, hload⟩ := h
  rw [runIn_load, ← hlayout] at hload
  exact ⟨settings, detection, hsettings, mapError_eq_ok.1 hload⟩

end Quiet

section Retentive

variable [RetentiveFileSystem σ]

theorem finds_of_store (hsettings : consulted home named s' = .ok settings)
    (hpath : Format.ofPath? output = some .json)
    (h : runIn s (store A output .json) = (.ok (), s')) :
    Finds home named ⟨some output, none, none⟩ s' A := by
  refine ⟨settings, ⟨.json, .extension⟩, hsettings, ?_⟩
  change Detection.load output (opened s' output) none _ = _
  rw [opened_of_store h]
  exact Detection.load_json_encode hpath _

/-- The settings decide in which layout a check reads a description, but a conversion is the same
under all of them. -/
theorem check_after_convert (hsettings : consulted home named s = .ok settings)
    (hsettings' : consulted home named s' = .ok settings')
    (hpath : Format.ofPath? output = some .json)
    (hconvert : Converts home named s input output none layout s') :
    (∀ home' named', Converts home' named' s input output none layout s') ∧
    (∀ first second,
      (((check first second ⟨some output, none, none⟩).run home named : StateM σ _).run s').1 =
        (((check first second ⟨some input, some (layout.getD .stateMajor), none⟩).run home named :
          StateM σ _).run s).1) ∧
    (layout.getD .stateMajor = settings.layoutOrDefault → ∀ first second,
      (((check first second ⟨some output, none, none⟩).run home named : StateM σ _).run s').1 =
        (((check first second ⟨some input, none, none⟩).run home named : StateM σ _).run s).1) := by
  obtain ⟨format, A, hformat, hreads, hstore⟩ := converts_iff.1 hconvert
  cases hpath.symm.trans hformat
  have houtput := finds_of_store hsettings' hpath hstore
  refine ⟨fun _ _ => converts_iff.2 ⟨.json, A, hpath, hreads, hstore⟩, ?_, fun hlayout => ?_⟩
  · have hgiven : Finds home named ⟨some input, some (layout.getD .stateMajor), none⟩ s A :=
      hreads.finds hsettings rfl
    exact houtput.run_check_eq hgiven
  · have hplain : Finds home named ⟨some input, none, none⟩ s A :=
      hreads.finds hsettings hlayout.symm
    exact houtput.run_check_eq hplain

end Retentive

/-- Settings for the legacy layout, and a description that is one in either layout. -/
def wideDisk : Disk :=
  ⟨[("/conf.json", .file (Settings.encode ⟨none, some .legacy⟩)),
    ("/wide.txt", .file (Text.utf8 "3 2 0 1 1\n0 0 0 0 1 0 0 2 1 1 0 0 1 1 0 1 2 0\n"))], []⟩

/-- The conversion is told which layout the settings are for. -/
theorem wide_check_after_convert :
    ∃ disk : Disk,
      Converts none (some "conf.json") wideDisk "wide.txt" "out.json" none (some .legacy) disk ∧
      (((check "" "0" ⟨some "wide.txt", none, none⟩).run none (some "conf.json") :
        StateM Disk _).run wideDisk).1 = (.ok (), "Words are acceptable\n") ∧
      (((check "" "0" ⟨some "out.json", none, none⟩).run none (some "conf.json") :
        StateM Disk _).run disk).1 = (.ok (), "Words are acceptable\n") := by
  let A : Automaton := ⟨3, 2, 0, [1], #[0, 0, 1, 1, 0, 0], by decide, by decide, by decide, rfl,
    by decide, by decide, by decide⟩
  have hjson : Format.ofPath? "out.json" = some .json := by decide +kernel
  have hreads : Reads A wideDisk "wide.txt" none (some .legacy) :=
    ⟨⟨.text, .extension⟩, by decide +kernel⟩
  have htarget : wideDisk.target "out.json" = .ok "/out.json" := by decide +kernel
  have hconverts : Converts none (some "conf.json") wideDisk "wide.txt" "out.json" none
      (some .legacy) _ := converts_disk hjson hreads htarget
  have hsettings : consulted none (some "conf.json") wideDisk = .ok ⟨none, some .legacy⟩ := by
    decide +kernel
  have hsettings' : consulted none (some "conf.json")
      (wideDisk.put "/out.json" (.file (Format.json.encode A))) = .ok ⟨none, some .legacy⟩ := by
    decide +kernel
  have hcheck : (((check "" "0" ⟨some "wide.txt", none, none⟩).run none (some "conf.json") :
      StateM Disk _).run wideDisk).1 = (.ok (), "Words are acceptable\n") := by decide +kernel
  obtain ⟨_, _, hsame⟩ := check_after_convert hsettings hsettings' hjson hconverts
  exact ⟨_, hconverts, hcheck, (hsame rfl "" "0").trans hcheck⟩

/-- The conversion is not told, and goes by another layout than the check before it. -/
theorem wide_check_changed :
    ∃ disk : Disk, consulted none (some "conf.json") wideDisk = .ok ⟨none, some .legacy⟩ ∧
      Converts none (some "conf.json") wideDisk "wide.txt" "out.json" none none disk ∧
      (((check "" "0" ⟨some "wide.txt", none, none⟩).run none (some "conf.json") :
        StateM Disk _).run wideDisk).1 = (.ok (), "Words are acceptable\n") ∧
      (((check "" "0" ⟨some "out.json", none, none⟩).run none (some "conf.json") :
        StateM Disk _).run disk).1 = (.ok (), "Words are not acceptable\n") := by
  let A : Automaton := ⟨3, 2, 0, [1], #[0, 0, 1, 0, 0, 0], by decide, by decide, by decide, rfl,
    by decide, by decide, by decide⟩
  have hreads : Reads A wideDisk "wide.txt" none none := ⟨⟨.text, .extension⟩, by decide +kernel⟩
  have hjson : Format.ofPath? "out.json" = some .json := by decide +kernel
  have htarget : wideDisk.target "out.json" = .ok "/out.json" := by decide +kernel
  exact ⟨_, by decide +kernel, converts_disk hjson hreads htarget, by decide +kernel,
    by decide +kernel⟩

end Command

end FiniteReach
