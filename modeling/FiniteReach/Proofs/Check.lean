import FiniteReach.Proofs.Decision
import FiniteReach.Proofs.Frame
import FiniteReach.Proofs.Settings.Contents
import FiniteReach.Proofs.Unreadable

/-!
# How a check ends

A check passes five stages or ends in the first that it does not pass: the settings, the automaton,
the first word, the second, and the symbols of both. `Checked` has a rule for each end, with the exit
code and the output, and a run ends as the rules say and in no other way (`check_ends`). Where the
machine traps while it loads the automaton, the program goes down with an exit code of its own.
-/

namespace FiniteReach

open FileSystem

variable {σ : Type} [FileSystem (StateM σ)]

theorem LoadFault.exitCode_kind (fault : LoadFault) :
    fault.kind.exitCode = 3 ∨ fault.kind.exitCode = 4 := by
  cases fault with
  | unreadable path cause => exact .inl rfl
  | malformed fault => exact .inr rfl

theorem CodecFault.exitCode_kind {fault : CodecFault} (htrap : fault ≠ .record .trap) :
    fault.kind.exitCode = 3 ∨ fault.kind.exitCode = 4 := by
  cases fault with
  | unwritten cause => exact .inl rfl
  | description fault => exact fault.exitCode_kind
  | binary | json => exact .inr rfl
  | record cause =>
      cases cause with
      | trap => exact absurd rfl htrap
      | fault fault => exact .inr rfl

namespace Detection

variable {path : String} {opened : Except IoFault Source} {layout : Layout} {failure : Failure}

theorem exitCode_of_loadAs {format : Format}
    (h : loadAs path opened layout format = .error failure) (htrap : failure ≠ .trap) :
    failure.exitCode = 3 ∨ failure.exitCode = 4 := by
  cases opened with
  | error cause =>
      cases h
      exact .inl rfl
  | ok src =>
      cases format with
      | text =>
          obtain ⟨fault, _, rfl⟩ := mapError_eq_error.1 h
          exact LoadFault.exitCode_kind fault
      | json | binary =>
          obtain ⟨fault, _, rfl⟩ := mapError_eq_error.1 h
          exact CodecFault.exitCode_kind fun hrecord => htrap (congrArg Failure.codec hrecord)

theorem exitCode_of_load {user : Option Format} (h : load path opened user layout = .error failure)
    (htrap : failure ≠ .trap) : failure.exitCode = 3 ∨ failure.exitCode = 4 :=
  exitCode_of_loadAs (loadAs_of_load h htrap) htrap

end Detection

/-! ## Settings -/

/-- Settings that are found: those of their file, or all left open if there is none. -/
inductive Settings.Found (home named : Option String) (s : σ) : Settings → Prop where
  | absent {path : String} : Settings.path home named = .ok path → held s path = false →
      Found home named s {}
  | present {path : String} {settings : Settings} : Settings.path home named = .ok path →
      held s path = true → settings.Holds (opened s path) → Found home named s settings

/-! ## Stages -/

namespace Command

/-- The automaton of a selection: that of the option, or else of the settings, or else the default
one. -/
def selected (selection : Selection) (s : σ) (settings : Settings) :
    Except Failure (Automaton × Detection) :=
  let wanted := settings.override selection.automaton selection.layout
  Detection.load wanted.automatonOrDefault (opened s wanted.automatonOrDefault) selection.format
    wanted.layoutOrDefault

/-- The file of a selection holds a record whose table cannot be allocated. -/
def Overtaxes (selection : Selection) (s : σ) (settings : Settings) : Prop :=
  let wanted := settings.override selection.automaton selection.layout
  Detection.Traps wanted.automatonOrDefault (opened s wanted.automatonOrDefault) selection.format

variable (home named : Option String) (first second : String) (selection : Selection) (s : σ)

/-- The settings are usable and the automaton of the selection is there. -/
def Finds (A : Automaton) : Prop :=
  ∃ settings detection, consulted home named s = .ok settings ∧
    selected selection s settings = .ok (A, detection)

/-- A check ends with an exit code and an output. -/
inductive Checked : Nat → String → Prop where
  | unusable {fault : SettingsFault} (hsettings : consulted home named s = .error fault) :
    Checked 1 ""
  | unloaded {settings : Settings} {failure : Failure}
    (hsettings : consulted home named s = .ok settings)
    (hload : selected selection s settings = .error failure) : Checked failure.exitCode ""
  | first {A : Automaton} {fault : WordFault} (hA : Finds home named selection s A)
    (hfirst : Word.parse first = .error fault) : Checked 4 ""
  | second {A : Automaton} {u : Word} {fault : WordFault} (hA : Finds home named selection s A)
    (hfirst : Word.parse first = .ok u) (hsecond : Word.parse second = .error fault) : Checked 4 ""
  | strange {A : Automaton} {u v : Word} (hA : Finds home named selection s A)
    (hfirst : Word.parse first = .ok u) (hsecond : Word.parse second = .ok v)
    (hover : ¬ (u.Over A.alphabetSize ∧ v.Over A.alphabetSize)) : Checked 5 ""
  | decided {A : Automaton} {u v : Word} {b : Bool} (hA : Finds home named selection s A)
    (hfirst : Word.parse first = .ok u) (hsecond : Word.parse second = .ok v)
    (hover : u.Over A.alphabetSize ∧ v.Over A.alphabetSize) (hb : A.acceptable u v = .ok b) :
    Checked 0 (Automaton.verdict b ++ "\n")

/-- A check that passes a stage comes to the next. -/
theorem exists_checked : ∃ code text, Checked home named first second selection s code text := by
  cases hsettings : consulted home named s with
  | error fault => exact ⟨_, _, .unusable hsettings⟩
  | ok settings =>
      cases hload : selected selection s settings with
      | error failure => exact ⟨_, _, .unloaded hsettings hload⟩
      | ok loaded =>
          have hA : Finds home named selection s loaded.1 := ⟨settings, loaded.2, hsettings, hload⟩
          cases hfirst : Word.parse first with
          | error fault => exact ⟨_, _, .first hA hfirst⟩
          | ok u =>
              cases hsecond : Word.parse second with
              | error fault => exact ⟨_, _, .second hA hfirst hsecond⟩
              | ok v =>
                  by_cases hover : u.Over loaded.1.alphabetSize ∧ v.Over loaded.1.alphabetSize
                  · obtain ⟨b, hb⟩ := Automaton.exists_acceptable_eq_ok.2 hover
                    exact ⟨_, _, .decided hA hfirst hsecond hover hb⟩
                  · exact ⟨_, _, .strange hA hfirst hsecond hover⟩

variable {home named first second selection s}

/-! ## What the program does in each stage -/

theorem runIn_decision_error {complaint : Complaint}
    (h : runIn s (select home named selection) = (.error complaint, s)) :
    runIn s (decision home named first second selection) = (.error complaint, s) := by
  rw [decision, runIn_bind, h]

theorem runIn_decision {path : String} {A : Automaton} {detection : Detection}
    (h : runIn s (select home named selection) = (.ok (path, A, detection), s)) :
    runIn s (decision home named first second selection) =
      (do let u ← (Word.parse first).mapError (.word .first first)
          let v ← (Word.parse second).mapError (.word .second second)
          (A.acceptable u v).mapError .run, s) := by
  rw [decision, runIn_bind, h]
  simp only [runIn_bind, runIn_expect]
  cases Word.parse first with
  | error fault => rfl
  | ok u =>
      cases Word.parse second with
      | error fault => rfl
      | ok v => rfl

section Quiet

variable [QuietFileSystem σ]

theorem stored_eq_ok_iff {settings : Settings} :
    Settings.stored home named s = .ok settings ↔ Settings.Found home named s settings := by
  constructor
  · intro h
    cases hpath : Settings.path home named with
    | error fault =>
        rw [Settings.stored, Settings.load, hpath] at h
        cases h
    | ok path =>
        rw [Settings.stored_eq hpath] at h
        split at h
        · next hheld => exact .present hpath hheld (Settings.read_eq_ok_iff.1 h)
        · next hheld =>
            cases h
            exact .absent hpath (Bool.not_eq_true _ ▸ hheld)
  · intro h
    cases h with
    | absent hpath hheld =>
        rw [Settings.stored_eq hpath, hheld]
        rfl
    | present hpath hheld hholds =>
        rw [Settings.stored_eq hpath, if_pos hheld]
        exact Settings.read_eq_ok_iff.2 hholds

/-- The settings that a command goes by. Where those in the user's home are of no use, they are all
left open. -/
theorem consulted_eq_ok_iff {settings : Settings} :
    consulted home named s = .ok settings ↔ Settings.Found home named s settings ∨
      (named = none ∧ settings = {} ∧ ∀ other, ¬ Settings.Found home named s other) := by
  simp only [← stored_eq_ok_iff]
  unfold consulted
  cases hstored : Settings.stored home named s with
  | ok stored => cases named <;> simp
  | error fault =>
      cases named with
      | none => simp [eq_comm]
      | some name => simp

theorem runIn_select_error {fault : SettingsFault}
    (hsettings : consulted home named s = .error fault) :
    runIn s (select home named selection) = (.error (.settings fault), s) := by
  rw [select, runIn_bind, runIn_settingsFor, hsettings]
  rfl

theorem runIn_select {settings : Settings} (hsettings : consulted home named s = .ok settings)
    (selection : Selection) :
    ∃ path, runIn s (select home named selection) =
      (((selected selection s settings).mapError (.automaton path)).map (path, ·), s) := by
  let wanted := settings.override selection.automaton selection.layout
  have hload : runIn s (load wanted.automatonOrDefault selection.format wanted.layoutOrDefault) =
      ((selected selection s settings).mapError (.automaton wanted.automatonOrDefault), s) :=
    runIn_load _ _ _ s
  refine ⟨wanted.automatonOrDefault, ?_⟩
  rw [select, runIn_bind, runIn_settingsFor, hsettings]
  change runIn s (load wanted.automatonOrDefault selection.format wanted.layoutOrDefault >>=
    fun loaded => pure (wanted.automatonOrDefault, loaded)) = _
  rw [runIn_bind, hload]
  cases selected selection s settings with
  | ok loaded => rfl
  | error failure => rfl

theorem Finds.runIn_decision {A : Automaton} (hA : Finds home named selection s A) :
    runIn s (decision home named first second selection) =
      (do let u ← (Word.parse first).mapError (.word .first first)
          let v ← (Word.parse second).mapError (.word .second second)
          (A.acceptable u v).mapError .run, s) := by
  obtain ⟨settings, detection, hsettings, hload⟩ := hA
  obtain ⟨path, hselect⟩ := runIn_select hsettings selection
  rw [hload] at hselect
  exact Command.runIn_decision hselect

/-! ## Ends -/

/-- The exit code and the output of a check. -/
def ending : Except Complaint Bool → Nat × String
  | .ok b => (0, Automaton.verdict b ++ "\n")
  | .error complaint => (complaint.exitCode, "")

theorem Checked.ending_eq {code : Nat} {text : String}
    (h : Checked home named first second selection s code text) :
    ending (runIn s (decision home named first second selection)).1 = (code, text) := by
  cases h with
  | unusable hsettings =>
      rw [runIn_decision_error (runIn_select_error hsettings)]
      rfl
  | unloaded hsettings hload =>
      obtain ⟨path, hselect⟩ := runIn_select hsettings selection
      rw [hload] at hselect
      rw [runIn_decision_error hselect]
      rfl
  | first hA hfirst =>
      rw [hA.runIn_decision, hfirst]
      rfl
  | second hA hfirst hsecond =>
      rw [hA.runIn_decision, hfirst, hsecond]
      rfl
  | @strange A u v hA hfirst hsecond hover =>
      cases hb : A.acceptable u v with
      | ok b => exact absurd (Automaton.exists_acceptable_eq_ok.1 ⟨b, hb⟩) hover
      | error fault =>
          rw [hA.runIn_decision, hfirst, hsecond]
          simp only [mapError_ok, mapError_error, bind, Except.bind, hb]
          rfl
  | decided hA hfirst hsecond hover hb =>
      rw [hA.runIn_decision, hfirst, hsecond]
      simp only [mapError_ok, bind, Except.bind, hb]
      rfl

end Quiet

/-! ## Exit codes -/

/-- What is wrong with the settings in the user's home is no fault of a check. -/
theorem exists_consulted (home : Option String) (s : σ) :
    ∃ settings, consulted home none s = .ok settings := by
  unfold consulted
  cases Settings.stored home none s with
  | ok settings => exact ⟨settings, rfl⟩
  | error fault => exact ⟨{}, rfl⟩

theorem selected_eq_trap_iff {settings : Settings} :
    selected selection s settings = .error .trap ↔ Overtaxes selection s settings :=
  Detection.load_eq_trap_iff

theorem exitCode_of_selected {settings : Settings} {failure : Failure}
    (h : selected selection s settings = .error failure) :
    (Overtaxes selection s settings ∧ failure.exitCode = 101) ∨
      (¬ Overtaxes selection s settings ∧ (failure.exitCode = 3 ∨ failure.exitCode = 4)) := by
  rw [← selected_eq_trap_iff, h, Except.error.injEq]
  by_cases htrap : failure = .trap
  · subst htrap
    exact .inl ⟨rfl, rfl⟩
  · exact .inr ⟨htrap, Detection.exitCode_of_load h htrap⟩

theorem three_le_exitCode_of_selected {settings : Settings} {failure : Failure}
    (h : selected selection s settings = .error failure) : 3 ≤ failure.exitCode := by
  rcases exitCode_of_selected h with ⟨_, hcode⟩ | ⟨_, hcode | hcode⟩
  · omega
  · omega
  · omega

theorem Checked.of_zero {code : Nat} {text : String}
    (h : Checked home named first second selection s code text) (hcode : code = 0) :
    ∃ A u v, Finds home named selection s A ∧ Word.parse first = .ok u ∧
      Word.parse second = .ok v ∧ u.Over A.alphabetSize ∧ v.Over A.alphabetSize := by
  cases h with
  | unloaded hsettings hload =>
      have hthree := three_le_exitCode_of_selected hload
      omega
  | decided hA hfirst hsecond hover hb => exact ⟨_, _, _, hA, hfirst, hsecond, hover⟩
  | unusable | first | second | strange => cases hcode

theorem Checked.of_one {code : Nat} {text : String}
    (h : Checked home named first second selection s code text) (hcode : code = 1) :
    ∃ fault, consulted home named s = .error fault := by
  cases h with
  | unusable hsettings => exact ⟨_, hsettings⟩
  | unloaded hsettings hload =>
      have hthree := three_le_exitCode_of_selected hload
      omega
  | first | second | strange | decided => cases hcode

theorem Checked.of_trap {code : Nat} {text : String}
    (h : Checked home named first second selection s code text) (hcode : code = 101) :
    ∃ settings, consulted home named s = .ok settings ∧ Overtaxes selection s settings := by
  cases h with
  | unloaded hsettings hload =>
      rcases exitCode_of_selected hload with ⟨hovertaxes, _⟩ | ⟨_, h | h⟩
      · exact ⟨_, hsettings, hovertaxes⟩
      · cases h.symm.trans hcode
      · cases h.symm.trans hcode
  | unusable | first | second | strange | decided => cases hcode

end Command

namespace CommandLine

open Command

variable {program : Program} {home named : Option String}
  {arguments : List String} {first second : String} {selection : Selection} {outcome : Outcome}
  {s s' : σ}

theorem Program.ending_of_check
    (hread : program.read arguments = .ok ⟨.check first second selection, named⟩)
    (hrun : (program.run home arguments : StateM σ Outcome).run s = (outcome, s')) :
    ending (runIn s (decision home named first second selection)).1 =
      (outcome.exitCode, outcome.output program) := by
  rw [run_of_read hread, run_check] at hrun
  rcases hresult : runIn s (decision home named first second selection) with ⟨complaint | b, _⟩
  · rw [hresult] at hrun
    cases hrun
    rfl
  · rw [hresult] at hrun
    cases hrun
    simp [ending, Outcome.exitCode, Outcome.output, String.join]

variable [QuietFileSystem σ]

/-- On whatever file system, a check ends in the first stage that it does not pass, and that is the
settings only if they are named. It is answered exactly if it passes all stages, and the program goes
down exactly if the automaton is in a record whose table cannot be allocated. -/
theorem Program.check_ends
    (hread : program.read arguments = .ok ⟨.check first second selection, named⟩)
    (hrun : (program.run home arguments : StateM σ Outcome).run s = (outcome, s')) :
    (∀ settings, consulted home named s = .ok settings ↔ Settings.Found home named s settings ∨
      (named = none ∧ settings = {} ∧ ∀ other, ¬ Settings.Found home named s other)) ∧
    (∀ code text, Checked home named first second selection s code text ↔
      outcome.exitCode = code ∧ outcome.output program = text) ∧
    (outcome.exitCode = 0 ↔ ∃ A u v, Finds home named selection s A ∧ Word.parse first = .ok u ∧
      Word.parse second = .ok v ∧ u.Over A.alphabetSize ∧ v.Over A.alphabetSize) ∧
    (∀ settings failure, selected selection s settings = .error failure →
      (Overtaxes selection s settings ∧ failure.exitCode = 101) ∨
        (¬ Overtaxes selection s settings ∧ (failure.exitCode = 3 ∨ failure.exitCode = 4))) ∧
    (outcome.exitCode = 101 ↔
      ∃ settings, consulted home named s = .ok settings ∧ Overtaxes selection s settings) ∧
    (named = none → outcome.exitCode ≠ 1) := by
  have hending := ending_of_check hread hrun
  have hends {code : Nat} {text : String}
      (h : Checked home named first second selection s code text) :
      outcome.exitCode = code ∧ outcome.output program = text :=
    Prod.ext_iff.1 (hending.symm.trans h.ending_eq)
  obtain ⟨code, text, hchecked⟩ := exists_checked home named first second selection s
  obtain ⟨hcode, htext⟩ := hends hchecked
  refine ⟨fun _ => consulted_eq_ok_iff, fun code' text' => ⟨hends, ?_⟩, ⟨?_, ?_⟩,
    fun _ _ => exitCode_of_selected, ⟨?_, ?_⟩, ?_⟩
  · rintro ⟨rfl, rfl⟩
    rwa [hcode, htext]
  · intro hzero
    exact hchecked.of_zero (hcode.symm.trans hzero)
  · rintro ⟨A, u, v, hA, hfirst, hsecond, hover⟩
    obtain ⟨b, hb⟩ := Automaton.exists_acceptable_eq_ok.2 hover
    exact (hends (.decided hA hfirst hsecond hover hb)).1
  · intro htrap
    exact hchecked.of_trap (hcode.symm.trans htrap)
  · rintro ⟨settings, hsettings, hovertaxes⟩
    exact (hends (.unloaded hsettings (selected_eq_trap_iff.2 hovertaxes))).1
  · rintro rfl hone
    obtain ⟨fault, hfault⟩ := hchecked.of_one (hcode.symm.trans hone)
    obtain ⟨settings, hsettings⟩ := exists_consulted home s
    cases hsettings.symm.trans hfault

/-- Settings in the user's home that make no sense do not matter, and a file that is not there comes
before a word that is none. -/
theorem Program.chain_checked :
    ∃ disk : Disk, (∃ fault, Settings.stored (some "/home") none disk = .error fault) ∧
      Checked (some "/home") none "0" "1" ⟨none, none, none⟩ disk 0 "Words are acceptable\n" ∧
      (∃ fault, Word.parse "18446744073709551616" = .error fault) ∧
      Checked (some "/home") none "18446744073709551616" "1" ⟨some "gone", none, none⟩ disk 3 "" := by
  let disk : Disk := ⟨[("/home", .directory), ("/home/dfa-reach", .directory),
    ("/home/dfa-reach/config.json", .file (Text.utf8 "\x7b")),
    ("/test_automat", .file (Format.json.encode .chain))], []⟩
  have hplain : Program.reach.read ["0", "1"] =
      .ok ⟨.check "0" "1" ⟨none, none, none⟩, none⟩ := by decide +kernel
  have hgone : Program.reach.read ["18446744073709551616", "1", "-a", "gone"] =
      .ok ⟨.check "18446744073709551616" "1" ⟨some "gone", none, none⟩, none⟩ := by decide +kernel
  obtain ⟨⟨answered, _⟩, hanswered, hzero⟩ : ∃ final,
      (Program.reach.run (some "/home") ["0", "1"] : StateM Disk _).run disk = final ∧
        final.1.exitCode = 0 ∧ final.1.output .reach = "Words are acceptable\n" :=
    ⟨_, rfl, by decide +kernel, by decide +kernel⟩
  obtain ⟨⟨complained, _⟩, hcomplained, hthree⟩ : ∃ final,
      (Program.reach.run (some "/home") ["18446744073709551616", "1", "-a", "gone"] :
          StateM Disk _).run disk = final ∧
        final.1.exitCode = 3 ∧ final.1.output .reach = "" :=
    ⟨_, rfl, by decide +kernel, by decide +kernel⟩
  have hsettings : Settings.stored (some "/home") none disk =
      .error (.malformed "/home/dfa-reach/config.json" .endInObject) := by decide +kernel
  have hword : Word.parse "18446744073709551616" =
      .error (.tooLarge (Text.utf8 "18446744073709551616")) := by decide +kernel
  exact ⟨disk, ⟨_, hsettings⟩, ((check_ends hplain hanswered).2.1 _ _).2 hzero, ⟨_, hword⟩,
    ((check_ends hgone hcomplained).2.1 _ _).2 hthree⟩

/-- A record whose only row is too short, with a table that cannot be allocated. -/
def oversizedDisk : Disk :=
  ⟨[("/big.json", .file (Text.utf8 ("\x7b\"alphabet_size\":1152921504606846976," ++
    "\"initial_state\":0,\"final_states\":[],\"transitions\":[[]]\x7d")))], []⟩

/-- Before the row is looked at, the program goes down. -/
theorem Program.oversized_check :
    Program.tool.read ["check", "", "", "-a", "big.json"] =
        .ok ⟨.check "" "" ⟨some "big.json", none, none⟩, none⟩ ∧
      ((Program.tool.run none ["check", "", "", "-a", "big.json"] : StateM Disk _).run
        oversizedDisk).1.exitCode = 101 :=
  ⟨by decide +kernel, by decide +kernel⟩

end CommandLine

end FiniteReach
