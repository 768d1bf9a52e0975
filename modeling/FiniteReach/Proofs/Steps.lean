import FiniteReach.CommandLine.Outcome

/-!
# Steps and answers

A step works on a state and may fail; `runIn` is what it makes of a state. A command takes a step
that prints nothing, and nothing goes wrong once it has started to print. So its run is the run of
that step with a text for each result, and without a word if the step fails (`run_check` and so on).
-/

namespace FiniteReach

variable {σ ε α β : Type} {s s' : σ}

/-! ## Steps -/

/-- What a step that may fail makes of a state. -/
def runIn (s : σ) (x : ExceptT ε (StateM σ) α) : Except ε α × σ := x.run.run s

theorem runIn_bind (x : ExceptT ε (StateM σ) α) (f : α → ExceptT ε (StateM σ) β) :
    runIn s (x >>= f) =
      match runIn s x with
      | (.ok a, s') => runIn s' (f a)
      | (.error e, s') => (.error e, s') := by
  rw [runIn, ExceptT.run_bind, StateT.run_bind, runIn]
  obtain ⟨result, s'⟩ := x.run.run s
  cases result with
  | ok a => rfl
  | error e => rfl

theorem runIn_bind_eq_ok {x : ExceptT ε (StateM σ) α} {f : α → ExceptT ε (StateM σ) β} {b : β} :
    runIn s (x >>= f) = (.ok b, s') ↔
      ∃ a mid, runIn s x = (.ok a, mid) ∧ runIn mid (f a) = (.ok b, s') := by
  rw [runIn_bind]
  rcases runIn s x with ⟨_ | a, mid⟩
  · simp
  · simp [and_assoc]

theorem runIn_bind_eq_error {x : ExceptT ε (StateM σ) α} {f : α → ExceptT ε (StateM σ) β} {e : ε} :
    runIn s (x >>= f) = (.error e, s') ↔ runIn s x = (.error e, s') ∨
      ∃ a mid, runIn s x = (.ok a, mid) ∧ runIn mid (f a) = (.error e, s') := by
  rw [runIn_bind]
  rcases runIn s x with ⟨_ | a, mid⟩
  · simp
  · simp [and_assoc]

theorem runIn_lift_bind (action : StateM σ α) (f : α → ExceptT ε (StateM σ) β) :
    runIn s (liftM action >>= f) = runIn (action.run s).2 (f (action.run s).1) := rfl

theorem runIn_expect (result : Except ε α) (complain : ε → Complaint) :
    runIn s (Command.expect result complain) = (result.mapError complain, s) := rfl

theorem runIn_attempt_eq_ok {action : StateM σ (Except ε α)} {complain : ε → Complaint} {a : α} :
    runIn s (Command.attempt action complain) = (.ok a, s') ↔ action.run s = (.ok a, s') := by
  have hrun : runIn s (Command.attempt action complain) =
    ((action.run s).1.mapError complain, (action.run s).2) := rfl
  rw [hrun, Prod.ext_iff, Prod.ext_iff, mapError_eq_ok]

theorem runIn_attempt_eq_error {action : StateM σ (Except ε α)} {complain : ε → Complaint}
    {complaint : Complaint} : runIn s (Command.attempt action complain) = (.error complaint, s') ↔
      ∃ e, action.run s = (.error e, s') ∧ complain e = complaint := by
  have hrun : runIn s (Command.attempt action complain) =
    ((action.run s).1.mapError complain, (action.run s).2) := rfl
  rw [hrun, Prod.ext_iff, mapError_eq_error]
  constructor
  · rintro ⟨⟨e, he, hcomplain⟩, hs⟩
    exact ⟨e, Prod.ext he hs, hcomplain⟩
  · rintro ⟨e, he, hcomplain⟩
    rw [he]
    exact ⟨⟨e, rfl, hcomplain⟩, rfl⟩

/-! ## Storing -/

section Storing

open FileSystem

variable [FileSystem (StateM σ)]

theorem Command.runIn_store_eq_ok {A : Automaton} {output : String} {format : Format} :
    runIn s (store A output format) = (.ok (), s') ↔
      ∃ mid, (create output : StateM σ _).run s = (.ok (), mid) ∧
        (write output (format.encode A) : StateM σ _).run mid = (.ok (), s') := by
  rw [store, runIn_bind_eq_ok]
  simp only [runIn_attempt_eq_ok]
  constructor
  · rintro ⟨_, mid, h⟩
    exact ⟨mid, h⟩
  · rintro ⟨mid, h⟩
    exact ⟨(), mid, h⟩

namespace Settings

variable {home named : Option String} {path : String}

theorem run_write (settings : Settings) (path : String) (s : σ) :
    (settings.write path : StateM σ _).run s =
      match (create path : StateM σ _).run s with
      | (.error cause, mid) => (.error (.unwritten path cause), mid)
      | (.ok (), mid) =>
        (((FileSystem.write path settings.encode : StateM σ _).run mid).1.mapError (.unwritten path),
          ((FileSystem.write path settings.encode : StateM σ _).run mid).2) := by
  rw [write, StateT.run_bind]
  obtain ⟨result, mid⟩ := (create path : StateM σ _).run s
  cases result with
  | error cause => rfl
  | ok => rfl

theorem exists_of_write {settings : Settings}
    (h : (settings.write path : StateM σ _).run s = (.ok (), s')) :
    ∃ mid, (create path : StateM σ _).run s = (.ok (), mid) ∧
      (FileSystem.write path settings.encode : StateM σ _).run mid = (.ok (), s') := by
  rw [run_write] at h
  rcases hcreate : (create path : StateM σ _).run s with ⟨_ | _, mid⟩
  · rw [hcreate] at h
    cases h
  · simp only [hcreate] at h
    obtain ⟨hresult, hafter⟩ := Prod.ext_iff.1 h
    exact ⟨mid, rfl, Prod.ext (mapError_eq_ok.1 hresult) hafter⟩

/-- Makes the directory for a file, if its path names one. -/
def prepare (path : String) : StateM σ (Except IoFault Unit) :=
  if (Path.parent? path).getD "" = "" then return .ok ()
  else FileSystem.makeDirectories ((Path.parent? path).getD "")

theorem run_save (hpath : Settings.path home named = .ok path) (settings : Settings) (s : σ) :
    (settings.save home named : StateM σ _).run s =
      match (prepare path : StateM σ _).run s with
      | (.error cause, mid) => (.error (.noDirectory ((Path.parent? path).getD "") cause), mid)
      | (.ok (), mid) => (settings.write path : StateM σ _).run mid := by
  rw [save, hpath, prepare]
  by_cases hparent : (Path.parent? path).getD "" = ""
  · simp only [hparent, ↓reduceIte]
    rfl
  · simp only [hparent, ↓reduceIte, StateT.run_bind]
    obtain ⟨result, mid⟩ := (FileSystem.makeDirectories ((Path.parent? path).getD "") : StateM σ _).run s
    cases result with
    | error cause => rfl
    | ok => rfl

theorem exists_of_save {settings : Settings} (hpath : Settings.path home named = .ok path)
    (h : (settings.save home named : StateM σ _).run s = (.ok (), s')) :
    ∃ mid, (prepare path : StateM σ _).run s = (.ok (), mid) ∧
      (settings.write path : StateM σ _).run mid = (.ok (), s') := by
  rw [run_save hpath] at h
  rcases hprepare : (prepare path : StateM σ _).run s with ⟨_ | _, mid⟩
  · rw [hprepare] at h
    cases h
  · rw [hprepare] at h
    exact ⟨mid, rfl, h⟩

end Settings

end Storing

/-! ## What is printed -/

namespace Dialogue

theorem run_silently_bind (step : ExceptT Complaint (StateM σ) α)
    (k : α → Dialogue (StateM σ) β) (printed : List String) (s : σ) :
    ((silently step >>= k).run.run printed).run s =
      match runIn s step with
      | (.ok a, s') => ((k a).run.run printed).run s'
      | (.error complaint, s') => ((.error complaint, printed), s') := by
  rw [ExceptT.run_bind, StateT.run_bind, StateT.run_bind, runIn]
  have hstep : ((silently step).run.run printed).run s =
    (((step.run.run s).1, printed), (step.run.run s).2) := rfl
  rw [hstep]
  obtain ⟨result, s'⟩ := step.run.run s
  cases result with
  | ok a => rfl
  | error complaint => rfl

/-- A dialogue that prints some lines and does nothing else. -/
def Says (d : Dialogue (StateM σ) Unit) (lines : List String) : Prop :=
  ∀ printed s, (d.run.run printed).run s = ((.ok (), printed ++ lines), s)

theorem says_say (lines : List String) : Says (say lines : Dialogue (StateM σ) Unit) lines :=
  fun _ _ => rfl

theorem Says.bind {d d' : Dialogue (StateM σ) Unit} {lines lines' : List String}
    (hd : Says d lines) (hd' : Says d' lines') : Says (d >>= fun _ => d') (lines ++ lines') := by
  intro printed s
  rw [ExceptT.run_bind, StateT.run_bind, StateT.run_bind, hd, ← List.append_assoc]
  exact hd' (printed ++ lines) s

theorem Says.expect_bind {a : α} {k : α → Dialogue (StateM σ) Unit} {lines : List String}
    (hk : Says (k a) lines) (complain : ε → Complaint) :
    Says (silently (Command.expect (.ok a) complain) >>= k) lines := hk

end Dialogue

/-- The run of a command that takes a step and then prints, given what the step has made of a
state. -/
def answered (lines : α → List String) :
    Except Complaint α × σ → (Except Complaint Unit × String) × σ
  | (.ok a, s') => ((.ok (), String.join ((lines a).map (· ++ "\n"))), s')
  | (.error complaint, s') => ((.error complaint, ""), s')

theorem exists_answered_eq_ok {lines : α → List String} {x : Except Complaint α × σ} :
    (∃ text, answered lines x = ((.ok (), text), s')) ↔ ∃ a, x = (.ok a, s') := by
  rcases x with ⟨complaint | a, s⟩
  · simp [answered]
  · simp [answered]

namespace Command

open Dialogue

variable [FileSystem (StateM σ)] (home named : Option String) (selection : Selection) (s : σ)

theorem run_of_says {command : Command} {step : ExceptT Complaint (StateM σ) α}
    {k : α → Dialogue (StateM σ) Unit} {lines : α → List String}
    (hperform : command.perform home named = silently step >>= k)
    (hk : ∀ s' a, runIn s step = (.ok a, s') → Says (k a) (lines a)) :
    (command.run home named : StateM σ _).run s = answered lines (runIn s step) := by
  rw [run, StateT.run_bind, hperform, run_silently_bind]
  rcases hstep : runIn s step with ⟨_ | a, s'⟩
  · rfl
  · simp only
    rw [hk s' a hstep [] s']
    rfl

theorem run_check (first second : String) :
    ((check first second selection).run home named : StateM σ _).run s =
      answered (fun acceptable => [Automaton.verdict acceptable])
        (runIn s (decision home named first second selection)) :=
  run_of_says home named s rfl fun _ _ _ => says_say _

theorem run_reach (source : Nat) (target : Option Nat) :
    ((reach source target selection).run home named : StateM σ _).run s =
      answered (fun answer => [answer]) (runIn s (reached home named source target selection)) :=
  run_of_says home named s rfl fun _ _ _ => says_say _

theorem run_convert (input output : String) (fromFormat toFormat : Option Format)
    (layout : Option Layout) :
    ((convert input output fromFormat toFormat layout).run home named : StateM σ _).run s =
      answered (fun format => [s!"Converted {input} -> {output} ({format.name})"])
        (runIn s (conversion input output fromFormat toFormat layout)) :=
  run_of_says home named s rfl fun _ _ _ => says_say _

/-- There is always an initial state to start from, so that nothing goes wrong between the two parts
of the answer. -/
theorem run_info :
    ((info selection).run home named : StateM σ _).run s =
      answered (fun (path, A, detection) => Automaton.heading path detection ++
          A.figures ((A.closure A.initial).toOption.getD []).length)
        (runIn s (select home named selection)) := by
  refine run_of_says home named s rfl ?_
  rintro _ ⟨path, A, detection⟩ _
  have hclosure : A.closure A.initial = .ok _ := dif_pos A.initial_lt
  simp only [hclosure]
  exact (says_say _).bind ((says_say _).expect_bind .state)

theorem exists_path_of_load {settings : Settings} {s' : σ}
    (h : (Settings.load home named : StateM σ _).run s = (.ok settings, s')) :
    ∃ path, Settings.path home named = .ok path := by
  cases hpath : Settings.path home named with
  | ok path => exact ⟨path, rfl⟩
  | error fault =>
      rw [Settings.load, hpath] at h
      cases h

theorem exists_path_of_save {settings : Settings} {s' : σ}
    (h : (settings.save home named : StateM σ _).run s = (.ok (), s')) :
    ∃ path, Settings.path home named = .ok path := by
  cases hpath : Settings.path home named with
  | ok path => exact ⟨path, rfl⟩
  | error fault =>
      rw [Settings.save, hpath] at h
      cases h

/-- The settings that new ones are added to. -/
def standing (reset : Bool) : ExceptT Complaint (StateM σ) Settings :=
  if reset then pure {} else attempt (Settings.load home named) .settings

theorem renewal_eq_bind (automaton : Option String) (layout : Option Layout) (reset : Bool) :
    (renewal home named automaton layout reset : ExceptT Complaint (StateM σ) _) =
      standing home named reset >>= fun stored =>
        if reset || automaton.isSome || layout.isSome then
          attempt ((stored.override automaton layout).save home named) .settings >>= fun _ =>
            pure (stored.override automaton layout)
        else pure (stored.override automaton layout) := by
  cases reset with
  | false => rfl
  | true => rfl

/-- Settings are loaded or saved before anything is printed, so that there is a place for them. -/
theorem exists_path_of_renewal {automaton : Option String} {layout : Option Layout} {reset : Bool}
    {settings : Settings} {s' : σ}
    (h : runIn s (renewal home named automaton layout reset) = (.ok settings, s')) :
    ∃ path, Settings.path home named = .ok path := by
  rw [renewal_eq_bind, runIn_bind_eq_ok] at h
  obtain ⟨stored, mid, hstored, h⟩ := h
  cases reset with
  | false => exact exists_path_of_load home named s (runIn_attempt_eq_ok.1 hstored)
  | true =>
      obtain ⟨_, _, hsave, _⟩ := runIn_bind_eq_ok.1 h
      exact exists_path_of_save home named mid (runIn_attempt_eq_ok.1 hsave)

theorem run_settings (automaton : Option String) (layout : Option Layout) (reset : Bool) :
    ((settings automaton layout reset).run home named : StateM σ _).run s =
      let place := (Settings.path home named).toOption.getD ""
      answered (fun settings => ["Settings", ""] ++
          ([s!"  Config:    {place}"] ++ settings.figures))
        (runIn s (renewal home named automaton layout reset)) := by
  refine run_of_says home named s rfl ?_
  intro s' settings hrenewal
  obtain ⟨path, hpath⟩ := exists_path_of_renewal home named s hrenewal
  rw [hpath]
  exact (says_say _).bind (((says_say _).bind (says_say _)).expect_bind .settings)

end Command

namespace CommandLine

variable [FileSystem (StateM σ)] {program : Program} {home : Option String}
  {arguments : List String} {invocation : Invocation}

theorem Program.run_of_read (hread : program.read arguments = .ok invocation) (s : σ) :
    (program.run home arguments : StateM σ Outcome).run s =
      match (invocation.command.run home invocation.settingsFile : StateM σ _).run s with
      | ((.ok (), output), s') => (.answered output, s')
      | ((.error complaint, output), s') => (.complained output complaint, s') := by
  rw [Program.run, hread]
  simp only [Invocation.run, StateT.run_bind]
  obtain ⟨⟨result, output⟩, s'⟩ :=
    (invocation.command.run home invocation.settingsFile : StateM σ _).run s
  cases result with
  | ok => rfl
  | error complaint => rfl

end CommandLine

end FiniteReach
