import FiniteReach.CommandLine.Outcome
import FiniteReach.Proofs.FileSystems
import FiniteReach.Proofs.Steps
import Mathlib.Control.Monad.Basic

/-!
# What commands change

Every command writes last of all, and most do not write. `Keeps` says that a step changes nothing,
`Confined` that it changes at most the file of a path, and nothing when it fails; both are found
again in steps one after another. So a run that fails has changed no file and has printed nothing
(`run_frame`).
-/

namespace FiniteReach

open FileSystem

variable {σ ε α β : Type}

/-! ## Steps that change nothing -/

/-- A step that leaves every state as it is. -/
def Keeps (x : ExceptT ε (StateM σ) α) : Prop := ∀ s, (runIn s x).2 = s

theorem Keeps.eq_of_run {x : ExceptT ε (StateM σ) α} (hx : Keeps x) {result : Except ε α}
    {s s' : σ} (h : runIn s x = (result, s')) : s' = s := by
  have hs := hx s
  rwa [h] at hs

theorem keeps_pure (a : α) : Keeps (pure a : ExceptT ε (StateM σ) α) := fun _ => rfl

theorem keeps_expect (result : Except ε α) (complain : ε → Complaint) :
    Keeps (Command.expect result complain : ExceptT Complaint (StateM σ) α) := fun _ => rfl

theorem keeps_attempt {action : StateM σ (Except ε α)} (h : ∀ s, (action.run s).2 = s)
    (complain : ε → Complaint) : Keeps (Command.attempt action complain) := h

theorem Keeps.bind {x : ExceptT ε (StateM σ) α} {f : α → ExceptT ε (StateM σ) β} (hx : Keeps x)
    (hf : ∀ a, Keeps (f a)) : Keeps (x >>= f) := by
  intro s
  have hs := hx s
  rw [runIn_bind]
  rcases h : runIn s x with ⟨_ | a, mid⟩
  · rwa [h] at hs
  · rw [h] at hs
    exact (hf a mid).trans hs

section Quiet

variable [FileSystem (StateM σ)]

theorem Settings.keeps_save {home named : Option String} {fault : SettingsFault}
    (hpath : Settings.path home named = .error fault) (settings : Settings) :
    Keeps (ExceptT.mk (settings.save home named) : ExceptT _ (StateM σ) Unit) := by
  intro s
  rw [save, hpath]
  rfl

variable (home named : Option String)

/-- The settings that are stored in the file of a name, or in the user's home. -/
def Settings.stored (s : σ) : Except SettingsFault Settings :=
  ((Settings.load home named : StateM σ _).run s).1

/-- The settings that a command goes by: what is wrong with those in the user's home does not
matter. -/
def Command.consulted (s : σ) : Except SettingsFault Settings :=
  match named, Settings.stored home named s with
  | none, .error _ => .ok {}
  | _, stored => stored

variable [QuietFileSystem σ]

theorem Settings.load_unchanged (s : σ) :
    ((Settings.load home named : StateM σ (Except SettingsFault Settings)).run s).2 = s := by
  rw [Settings.load]
  cases Settings.path home named with
  | error fault => rfl
  | ok path =>
      have hholds := QuietFileSystem.holds_unchanged path s
      simp only [StateT.run_bind]
      rcases hheld : (holds path : StateM σ Bool).run s with ⟨held, mid⟩
      rw [hheld] at hholds
      subst hholds
      cases held with
      | false => rfl
      | true => exact QuietFileSystem.openRead_unchanged path mid

variable {home named} in
theorem Settings.stored_eq {path : String} (hpath : Settings.path home named = .ok path) (s : σ) :
    stored home named s = if held s path then read path (opened s path) else .ok {} := by
  have hholds : (holds path : StateM σ Bool).run s = (held s path, s) :=
    Prod.ext rfl (QuietFileSystem.holds_unchanged path s)
  rw [stored, load, hpath]
  simp only [StateT.run_bind, hholds]
  cases held s path with
  | true => rfl
  | false => rfl

namespace Command

theorem runIn_load (path : String) (format : Option Format) (layout : Layout) (s : σ) :
    runIn s (load path format layout) =
      ((Detection.load path (opened s path) format layout).mapError (.automaton path), s) :=
  Prod.ext rfl (QuietFileSystem.openRead_unchanged path s)

theorem keeps_load (path : String) (format : Option Format) (layout : Layout) :
    Keeps (load path format layout : ExceptT Complaint (StateM σ) _) := by
  intro s
  rw [runIn_load]

theorem runIn_settingsFor (selection : Selection) (s : σ) :
    runIn s (settingsFor home named selection) =
      (((consulted home named s).mapError .settings).map fun settings =>
        settings.override selection.automaton selection.layout, s) := by
  have hload : (Settings.load home named : StateM σ _).run s = (Settings.stored home named s, s) :=
    Prod.ext rfl (Settings.load_unchanged home named s)
  rw [settingsFor, runIn_lift_bind, hload]
  unfold consulted
  cases named with
  | some name =>
      cases Settings.stored home (some name) s with
      | ok settings => rfl
      | error fault => rfl
  | none =>
      cases Settings.stored home none s with
      | ok settings => rfl
      | error fault => rfl

theorem keeps_settingsFor (selection : Selection) :
    Keeps (settingsFor home named selection : ExceptT Complaint (StateM σ) _) := by
  intro s
  rw [runIn_settingsFor]

theorem keeps_select (selection : Selection) :
    Keeps (select home named selection : ExceptT Complaint (StateM σ) _) :=
  (keeps_settingsFor home named selection).bind fun _ =>
    (keeps_load _ _ _).bind fun _ => keeps_pure _

theorem keeps_decision (first second : String) (selection : Selection) :
    Keeps (decision home named first second selection : ExceptT Complaint (StateM σ) _) :=
  (keeps_select home named selection).bind fun _ =>
    (keeps_expect _ _).bind fun _ => (keeps_expect _ _).bind fun _ => keeps_expect _ _

theorem keeps_reached (source : Nat) (target : Option Nat) (selection : Selection) :
    Keeps (reached home named source target selection : ExceptT Complaint (StateM σ) _) := by
  refine (keeps_select home named selection).bind fun _ => ?_
  cases target with
  | none => exact (keeps_expect _ _).bind fun _ => keeps_pure _
  | some target => exact (keeps_expect _ _).bind fun _ => keeps_pure _

end Command

end Quiet

/-! ## Steps that change one file -/

section Framed

open FramedFileSystem

variable [FileSystem (StateM σ)] [FramedFileSystem σ] {changes : Option String} {path : String}
  {content : Bytes} {s mid s' : σ}

/-- A step that changes at most the regular file of a path, if one is given, and no regular file at
all when it fails. -/
structure Confined (changes : Option String) (x : ExceptT ε (StateM σ) α) : Prop where
  keeps : changes = none → Keeps x
  spares {s s' : σ} {a : α} : runIn s x = (.ok a, s') → ∀ key, file? s' key = file? s key ∨
    ∃ path, changes = some path ∧ target? s' path = some key
  restores {s s' : σ} {e : ε} : runIn s x = (.error e, s') → file? s' = file? s

theorem Keeps.confined {x : ExceptT ε (StateM σ) α} (hx : Keeps x) : Confined changes x where
  keeps _ := hx
  spares h _ := .inl (by rw [hx.eq_of_run h])
  restores h := by rw [hx.eq_of_run h]

theorem Keeps.bind_confined {x : ExceptT ε (StateM σ) α} {f : α → ExceptT ε (StateM σ) β}
    (hx : Keeps x) (hf : ∀ a, Confined changes (f a)) : Confined changes (x >>= f) where
  keeps h := hx.bind fun a => (hf a).keeps h
  spares h := by
    obtain ⟨a, mid, hxa, h⟩ := runIn_bind_eq_ok.1 h
    rw [hx.eq_of_run hxa] at h
    exact (hf a).spares h
  restores h := by
    rcases runIn_bind_eq_error.1 h with h | ⟨a, mid, hxa, h⟩
    · rw [hx.eq_of_run h]
    · rw [hx.eq_of_run hxa] at h
      exact (hf a).restores h

theorem Confined.bind_pure {x : ExceptT ε (StateM σ) α} (hx : Confined changes x) (b : β) :
    Confined changes (x >>= fun _ => pure b) where
  keeps h := (hx.keeps h).bind fun _ => keeps_pure b
  spares h := by
    obtain ⟨_, _, hxa, h⟩ := runIn_bind_eq_ok.1 h
    cases h
    exact hx.spares hxa
  restores h := by
    rcases runIn_bind_eq_error.1 h with h | ⟨_, _, _, h⟩
    · exact hx.restores h
    · cases h

theorem Confined.attempt {action : StateM σ (Except ε α)}
    (h : Confined changes (ExceptT.mk action)) (complain : ε → Complaint) :
    Confined changes (Command.attempt action complain) where
  keeps hnone := keeps_attempt (h.keeps hnone) complain
  spares hrun := h.spares (runIn_attempt_eq_ok.1 hrun)
  restores hrun := by
    obtain ⟨_, hrun, _⟩ := runIn_attempt_eq_error.1 hrun
    exact h.restores hrun

/-! ## Writing -/

theorem file?_of_write {result : Except IoFault Unit}
    (hcreate : (create path : StateM σ _).run s = (.ok (), mid))
    (hwrite : (write path content : StateM σ _).run mid = (result, s')) (key : Key σ) :
    file? s' key = file? s key ∨ target? s' path = some key := by
  obtain ⟨htarget, hkept | hwritten⟩ := write_frame key hcreate hwrite
  · rw [hkept, htarget]
    exact create_frame key hcreate
  · exact .inr (htarget.trans hwritten)

/-- What cannot be written to is no regular file. -/
theorem file?_of_write_error {fault : IoFault}
    (hcreate : (create path : StateM σ _).run s = (.ok (), mid))
    (hwrite : (write path content : StateM σ _).run mid = (.error fault, s')) :
    file? s' = file? s := by
  funext key
  have hdevice := write_ok hcreate hwrite
  obtain ⟨htarget, _⟩ := write_frame key hcreate hwrite
  refine (file?_of_write hcreate hwrite key).resolve_right ?_
  rw [htarget, hdevice]
  nofun

namespace Settings

variable {settings : Settings} {home named : Option String}

theorem confined_write (settings : Settings) (path : String) :
    Confined (some path) (ExceptT.mk (settings.write path) : ExceptT _ (StateM σ) Unit) where
  keeps := nofun
  spares h key := by
    obtain ⟨mid, hcreate, hwrite⟩ := exists_of_write h
    exact (file?_of_write hcreate hwrite key).imp_right fun h => ⟨_, rfl, h⟩
  restores {s _ _} h := by
    rw [runIn, ExceptT.run_mk, run_write] at h
    rcases hcreate : (create path : StateM σ _).run s with ⟨_ | _, mid⟩
    · rw [hcreate] at h
      cases h
      exact create_refused hcreate
    · simp only [hcreate, Prod.ext_iff, mapError_eq_error] at h
      obtain ⟨⟨_, hwrite, _⟩, hs⟩ := h
      exact file?_of_write_error hcreate (Prod.ext hwrite hs)

theorem file?_of_prepare {result : Except IoFault Unit}
    (h : (prepare path : StateM σ _).run s = (result, s')) : file? s' = file? s := by
  rw [prepare] at h
  split at h
  · cases h
    rfl
  · have hframe := makeDirectories_frame ((Path.parent? path).getD "") s
    rwa [h] at hframe

/-- Directories that are made on the way are no regular files. -/
theorem confined_save (hpath : Settings.path home named = .ok path) (settings : Settings) :
    Confined (some path) (ExceptT.mk (settings.save home named) : ExceptT _ (StateM σ) Unit) where
  keeps := nofun
  spares h key := by
    obtain ⟨mid, hprepare, hwrite⟩ := exists_of_save hpath h
    rw [← file?_of_prepare hprepare]
    exact (confined_write settings path).spares hwrite key
  restores {s _ _} h := by
    rw [runIn, ExceptT.run_mk, run_save hpath] at h
    rcases hprepare : (prepare path : StateM σ _).run s with ⟨_ | _, mid⟩
    · rw [hprepare] at h
      cases h
      exact file?_of_prepare hprepare
    · rw [hprepare] at h
      exact ((confined_write settings path).restores h).trans (file?_of_prepare hprepare)

end Settings

namespace Command

theorem confined_store (A : Automaton) (output : String) (format : Format) :
    Confined (some output) (store A output format : ExceptT Complaint (StateM σ) Unit) where
  keeps := nofun
  spares h key := by
    obtain ⟨_, mid, hcreate, hwrite⟩ := runIn_bind_eq_ok.1 h
    exact (file?_of_write (runIn_attempt_eq_ok.1 hcreate) (runIn_attempt_eq_ok.1 hwrite) key).imp_right
      fun h => ⟨_, rfl, h⟩
  restores h := by
    rcases runIn_bind_eq_error.1 h with hcreate | ⟨_, mid, hcreate, hwrite⟩
    · obtain ⟨_, hcreate, _⟩ := runIn_attempt_eq_error.1 hcreate
      exact create_refused hcreate
    · obtain ⟨_, hwrite, _⟩ := runIn_attempt_eq_error.1 hwrite
      exact file?_of_write_error (runIn_attempt_eq_ok.1 hcreate) hwrite

theorem confined_conversion (input output : String) (fromFormat toFormat : Option Format)
    (layout : Option Layout) :
    Confined (some output) (conversion input output fromFormat toFormat layout :
      ExceptT Complaint (StateM σ) Format) :=
  (keeps_expect _ _).bind_confined fun format => (keeps_load _ _ _).bind_confined fun (A, _) =>
    (confined_store A output format).bind_pure format

theorem confined_renewal (home named automaton : Option String) (layout : Option Layout)
    (reset : Bool) :
    Confined (if reset || automaton.isSome || layout.isSome then
        (Settings.path home named).toOption else none)
      (renewal home named automaton layout reset : ExceptT Complaint (StateM σ) Settings) := by
  rw [renewal_eq_bind]
  have hstanding : Keeps (standing home named reset : ExceptT Complaint (StateM σ) Settings) := by
    cases reset with
    | false => exact keeps_attempt (Settings.load_unchanged home named) _
    | true => exact keeps_pure _
  refine hstanding.bind_confined fun stored => ?_
  split
  · cases hpath : Settings.path home named with
    | ok path => exact ((Settings.confined_save hpath _).attempt _).bind_pure _
    | error fault => exact ((Settings.keeps_save hpath _).confined.attempt _).bind_pure _
  · exact (keeps_pure _).confined

/-! ## Runs -/

/-- The path of the file that a command may change. -/
def changes? (home named : Option String) : Command → Option String
  | .check .. | .reach .. | .info _ => none
  | .convert _ output _ _ _ => some output
  | .settings automaton layout reset =>
    if reset || automaton.isSome || layout.isSome then (Settings.path home named).toOption else none

theorem exists_confined (command : Command) (home named : Option String) :
    ∃ (α : Type) (step : ExceptT Complaint (StateM σ) α) (lines : α → List String),
      Confined (command.changes? home named) step ∧ ∀ s,
        (command.run home named : StateM σ _).run s = answered lines (runIn s step) := by
  cases command with
  | check first second selection =>
      exact ⟨_, _, _, (keeps_decision home named first second selection).confined,
        fun s => run_check home named selection s first second⟩
  | reach source target selection =>
      exact ⟨_, _, _, (keeps_reached home named source target selection).confined,
        fun s => run_reach home named selection s source target⟩
  | info selection =>
      exact ⟨_, _, _, (keeps_select home named selection).confined,
        fun s => run_info home named selection s⟩
  | convert input output fromFormat toFormat layout =>
      exact ⟨_, _, _, confined_conversion input output fromFormat toFormat layout,
        fun s => run_convert home named s input output fromFormat toFormat layout⟩
  | settings automaton layout reset =>
      exact ⟨_, _, _, confined_renewal home named automaton layout reset,
        fun s => run_settings home named s automaton layout reset⟩

end Command

theorem Failure.exitCode_ne_zero (failure : Failure) : failure.exitCode ≠ 0 := by
  rw [Failure.exitCode]
  cases failure.kind <;> nofun

theorem Complaint.exitCode_ne_zero (complaint : Complaint) : complaint.exitCode ≠ 0 := by
  rw [Complaint.exitCode]
  cases complaint.failure? with
  | none => nofun
  | some failure => exact failure.exitCode_ne_zero

namespace CommandLine

variable {program : Program} {home : Option String} {arguments : List String}
  {invocation : Invocation} {outcome : Outcome}

/-- Whatever fails on whatever file system, a run changes at most the one file that its command may
change. A run that exits with another code than zero changes no file and answers nothing, and a run
that exits with zero complains of nothing. -/
theorem Program.run_frame (hread : program.read arguments = .ok invocation)
    (hrun : (program.run home arguments : StateM σ Outcome).run s = (outcome, s')) :
    (invocation.command.changes? home invocation.settingsFile = none → s' = s) ∧
    (∀ key, file? s' key ≠ file? s key → ∃ path,
      invocation.command.changes? home invocation.settingsFile = some path ∧
        target? s' path = some key) ∧
    (outcome.exitCode ≠ 0 → file? s' = file? s ∧ outcome.output program = "") ∧
    (outcome.exitCode = 0 → outcome.report program = "") := by
  obtain ⟨α, step, lines, hstep, hanswered⟩ :=
    Command.exists_confined (σ := σ) invocation.command home invocation.settingsFile
  rw [run_of_read hread, hanswered] at hrun
  rcases hresult : runIn s step with ⟨complaint | a, final⟩
  · rw [hresult] at hrun
    cases hrun
    refine ⟨fun hnone => (hstep.keeps hnone).eq_of_run hresult, fun key hkey => ?_, fun _ => ?_, ?_⟩
    · exact absurd (congrFun (hstep.restores hresult) key) hkey
    · exact ⟨hstep.restores hresult, rfl⟩
    · exact fun hzero => absurd hzero complaint.exitCode_ne_zero
  · rw [hresult] at hrun
    cases hrun
    refine ⟨fun hnone => (hstep.keeps hnone).eq_of_run hresult, fun key hkey => ?_, ?_, fun _ => rfl⟩
    · exact (hstep.spares hresult key).resolve_left hkey
    · exact fun hzero => absurd rfl hzero

end CommandLine

end Framed

namespace CommandLine

/-- New settings in a directory that is made for them. -/
theorem Program.settings_frame :
    ∃ (disk disk' : Disk) (outcome : Outcome),
      (Program.tool.run none ["settings", "--reset", "-c", "conf/c.json"] : StateM Disk _).run disk =
        (outcome, disk') ∧
      disk.file? "/other.json" = some [123] ∧ outcome.exitCode = 0 ∧ outcome.report .tool = "" ∧
      ∀ place, disk'.file? place ≠ disk.file? place → place = "/conf/c.json" := by
  let disk : Disk := ⟨[("/other.json", .file [123])], []⟩
  obtain ⟨⟨outcome, disk'⟩, hrun, hzero, htarget⟩ : ∃ final,
      (Program.tool.run none ["settings", "--reset", "-c", "conf/c.json"] : StateM Disk _).run disk =
        final ∧ final.1.exitCode = 0 ∧
      (final.2.target "conf/c.json").toOption = some "/conf/c.json" :=
    ⟨_, rfl, by decide +kernel, by decide +kernel⟩
  have hread : Program.tool.read ["settings", "--reset", "-c", "conf/c.json"] =
      .ok ⟨.settings none none true, some "conf/c.json"⟩ := by decide +kernel
  have hchanges : Command.changes? none (some "conf/c.json") (.settings none none true) =
      some "conf/c.json" := by decide +kernel
  obtain ⟨_, hchanged, _, hreport⟩ := run_frame hread hrun
  refine ⟨disk, disk', outcome, hrun, rfl, hzero, hreport hzero, fun place hplace => ?_⟩
  obtain ⟨path, hpath, hkey⟩ := hchanged place hplace
  cases hchanges.symm.trans hpath
  exact Option.some.inj (hkey.symm.trans htarget)

end CommandLine

end FiniteReach
