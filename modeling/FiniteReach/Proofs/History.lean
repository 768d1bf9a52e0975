import FiniteReach.Proofs.Frame
import FiniteReach.Proofs.Settings

/-!
# Settings over many runs

A run that asks for nothing leaves the file of the settings alone, and any other writes all of them
(`stored_of_run`). So after any number of runs the file holds what has been asked for last, as far as
it was asked for in the last run with a reset or after it (`settings_history`).
-/

namespace FiniteReach

open FileSystem

variable {σ : Type} [FileSystem (StateM σ)] {home : Option String} {path : String} {s s' : σ}

/-- What a run of the settings command is asked for. -/
structure Renewal where
  automaton : Option String
  layout : Option Layout
  reset : Bool
  deriving DecidableEq, Repr

namespace Renewal

/-- The command of a run. -/
def command (renewal : Renewal) : Command :=
  .settings renewal.automaton renewal.layout renewal.reset

/-- Something is asked for. -/
def Asks (renewal : Renewal) : Prop :=
  renewal.reset = true ∨ renewal.automaton.isSome ∨ renewal.layout.isSome

theorem asks_iff {renewal : Renewal} :
    (renewal.reset || renewal.automaton.isSome || renewal.layout.isSome) = true ↔ renewal.Asks := by
  simp only [Asks, Bool.or_eq_true, or_assoc]

/-- The settings after a run. -/
def apply (renewal : Renewal) (settings : Settings) : Settings :=
  (if renewal.reset then {} else settings).override renewal.automaton renewal.layout

theorem apply_automaton (renewal : Renewal) (settings : Settings) :
    (renewal.apply settings).automaton =
      (renewal.automaton <|> if renewal.reset then none else settings.automaton) := by
  rw [apply]
  cases renewal.reset <;> rfl

theorem apply_layout (renewal : Renewal) (settings : Settings) :
    (renewal.apply settings).layout =
      (renewal.layout <|> if renewal.reset then none else settings.layout) := by
  rw [apply]
  cases renewal.reset <;> rfl

theorem apply_of_not_asks {renewal : Renewal} (h : ¬ renewal.Asks) (settings : Settings) :
    renewal.apply settings = settings := by
  obtain ⟨automaton, layout, reset⟩ := renewal
  simp only [Asks, not_or, Bool.not_eq_true, Option.isSome_eq_false_iff, Option.isNone_iff_eq_none] at h
  obtain ⟨rfl, rfl, rfl⟩ := h
  rfl

theorem wished_eq_some {α : Type} {wish old : Option α} {reset : Bool} {a : α} :
    (wish <|> if reset then none else old) = some a ↔
      wish = some a ∨ (wish = none ∧ reset = false ∧ old = some a) := by
  cases wish with
  | some b => simp
  | none => cases reset <;> simp

/-- Of some runs, one made a wish, and no later one made another or reset the settings. -/
def InForce {α : Type} (wish : Renewal → Option α) (renewals : List Renewal) (a : α) : Prop :=
  ∃ before renewal after, renewals = before ++ renewal :: after ∧ wish renewal = some a ∧
    ∀ later ∈ after, wish later = none ∧ later.reset = false

theorem not_inForce_nil {α : Type} {wish : Renewal → Option α} {a : α} : ¬ InForce wish [] a := by
  rintro ⟨before, renewal, after, h, _⟩
  cases before <;> cases h

/-- The last run counts first. -/
theorem inForce_append_singleton {α : Type} {wish : Renewal → Option α} {renewals : List Renewal}
    {last : Renewal} {a : α} : InForce wish (renewals ++ [last]) a ↔
      wish last = some a ∨ (wish last = none ∧ last.reset = false ∧ InForce wish renewals a) := by
  constructor
  · rintro ⟨before, renewal, after, h, ha, hlater⟩
    -- Either nothing came after the run that made the wish, or the last run is one that came after.
    rcases List.eq_nil_or_concat after with rfl | ⟨after, last', rfl⟩
    · obtain ⟨_, hlast⟩ := List.append_inj' h rfl
      cases hlast
      exact .inl ha
    · rw [List.concat_eq_append] at h hlater
      rw [← List.cons_append, ← List.append_assoc] at h
      obtain ⟨hbefore, hlast⟩ := List.append_inj' h rfl
      cases hlast
      obtain ⟨hwish, hreset⟩ := hlater last (List.mem_append_right _ List.mem_cons_self)
      exact .inr ⟨hwish, hreset, before, renewal, after, hbefore, ha,
        fun later hmem => hlater later (List.mem_append_left _ hmem)⟩
  · rintro (ha | ⟨hwish, hreset, before, renewal, after, rfl, ha, hlater⟩)
    · exact ⟨renewals, last, [], rfl, ha, List.forall_mem_nil _⟩
    · refine ⟨before, renewal, after ++ [last], by simp, ha, ?_⟩
      simp only [List.mem_append, List.mem_singleton]
      rintro later (hmem | rfl)
      · exact hlater later hmem
      · exact ⟨hwish, hreset⟩

end Renewal

namespace Settings

/-- Settings that have been saved are there and are read back. -/
theorem stored_of_save [LastingFileSystem σ] {settings : Settings}
    (hpath : Settings.path home (some path) = .ok path)
    (h : (settings.save home (some path) : StateM σ _).run s = (.ok (), s')) :
    held s' path = true ∧ stored home (some path) s' = .ok settings := by
  obtain ⟨mid, _, hsave⟩ := exists_of_save hpath h
  obtain ⟨mid', hcreate, hwrite⟩ := exists_of_write hsave
  obtain ⟨hopened, hheld⟩ := LastingFileSystem.written hcreate hwrite
  refine ⟨hheld, ?_⟩
  rw [stored_eq hpath, if_pos hheld, hopened, read_encode]

end Settings

/-! ## Runs -/

/-- A run of the settings command on the file of a path succeeds. -/
def Renews (home : Option String) (path : String) (s : σ) (renewal : Renewal) (s' : σ) : Prop :=
  ∃ text, (renewal.command.run home (some path) : StateM σ _).run s = ((.ok (), text), s')

theorem renews_iff {renewal : Renewal} : Renews home path s renewal s' ↔
    ∃ settings, runIn s (Command.renewal home (some path) renewal.automaton renewal.layout
      renewal.reset) = (.ok settings, s') := by
  rw [Renews, Renewal.command, Command.run_settings]
  exact exists_answered_eq_ok

/-- Successful runs of the settings command on the file of a path, one after another. -/
inductive Renewed (home : Option String) (path : String) (s : σ) : List Renewal → σ → Prop where
  | start : Renewed home path s [] s
  | run {renewals : List Renewal} {mid s' : σ} {renewal : Renewal}
    (h : Renewed home path s renewals mid) (hrun : Renews home path mid renewal s') :
    Renewed home path s (renewals ++ [renewal]) s'

namespace Command

variable [LastingFileSystem σ] {renewal : Renewal} {settings : Settings}

theorem runIn_standing_eq_ok {stored : Settings} {reset : Bool} {mid : σ}
    (hstored : Settings.stored home (some path) s = .ok settings)
    (h : runIn s (standing home (some path) reset) = (.ok stored, mid)) :
    stored = (if reset then {} else settings) ∧ mid = s := by
  cases reset with
  | true =>
      cases h
      exact ⟨rfl, rfl⟩
  | false =>
      have hload := runIn_attempt_eq_ok.1 h
      have hquiet := Settings.load_unchanged home (some path) s
      rw [Settings.stored, hload] at hstored
      rw [hload] at hquiet
      cases hstored
      exact ⟨rfl, hquiet⟩

/-- What one run does to the settings, and to the file in which they are. -/
theorem stored_of_run (hpath : Settings.path home (some path) = .ok path)
    (hstored : Settings.stored home (some path) s = .ok settings)
    (hrun : Renews home path s renewal s') :
    Settings.stored home (some path) s' = .ok (renewal.apply settings) ∧
      (held s' path = true ↔ held s path = true ∨ renewal.Asks) := by
  obtain ⟨_, hrenewal⟩ := renews_iff.1 hrun
  rw [renewal_eq_bind] at hrenewal
  obtain ⟨stored, mid, hstanding, h⟩ := runIn_bind_eq_ok.1 hrenewal
  obtain ⟨rfl, rfl⟩ := runIn_standing_eq_ok hstored hstanding
  split at h
  · next hasks =>
      obtain ⟨_, mid', hsave, hdone⟩ := runIn_bind_eq_ok.1 h
      cases hdone
      obtain ⟨hheld, hsaved⟩ := Settings.stored_of_save hpath (runIn_attempt_eq_ok.1 hsave)
      rw [Renewal.asks_iff] at hasks
      exact ⟨hsaved, iff_of_true hheld (.inr hasks)⟩
  · next hasks =>
      cases h
      rw [Renewal.asks_iff] at hasks
      rw [Renewal.apply_of_not_asks hasks]
      exact ⟨hstored, (or_iff_left hasks).symm⟩

end Command

namespace Renewed

variable [LastingFileSystem σ] {renewals : List Renewal} {settings : Settings}

/-- What is stored after some runs, and whether anything is. -/
structure Kept (home : Option String) (path : String) (renewals : List Renewal) (s : σ)
    (settings : Settings) : Prop where
  stored : Settings.stored home (some path) s = .ok settings
  automaton (name : String) :
    settings.automaton = some name ↔ Renewal.InForce Renewal.automaton renewals name
  layout (layout : Layout) :
    settings.layout = some layout ↔ Renewal.InForce Renewal.layout renewals layout
  held : held s path = true ↔ ∃ renewal ∈ renewals, renewal.Asks

theorem kept_nil (hpath : Settings.path home (some path) = .ok path)
    (habsent : FileSystem.held s path = false) : Kept home path [] s {} where
  stored := by rw [Settings.stored_eq hpath, habsent]; rfl
  automaton _ := iff_of_false nofun Renewal.not_inForce_nil
  layout _ := iff_of_false nofun Renewal.not_inForce_nil
  held := by simp [habsent]

theorem Kept.run {renewal : Renewal} (hpath : Settings.path home (some path) = .ok path)
    (h : Kept home path renewals s settings) (hrun : Renews home path s renewal s') :
    Kept home path (renewals ++ [renewal]) s' (renewal.apply settings) := by
  obtain ⟨hstored, hheld⟩ := Command.stored_of_run hpath h.stored hrun
  refine ⟨hstored, fun name => ?_, fun layout => ?_, ?_⟩
  · rw [Renewal.apply_automaton, Renewal.wished_eq_some, Renewal.inForce_append_singleton,
      h.automaton]
  · rw [Renewal.apply_layout, Renewal.wished_eq_some, Renewal.inForce_append_singleton, h.layout]
  · rw [hheld, h.held]
    simp [or_and_right, exists_or]

theorem exists_kept (hpath : Settings.path home (some path) = .ok path)
    (habsent : FileSystem.held s path = false) (h : Renewed home path s renewals s') :
    ∃ settings, Kept home path renewals s' settings := by
  induction h with
  | start => exact ⟨{}, kept_nil hpath habsent⟩
  | @run _ _ _ renewal _ hrun ih =>
      obtain ⟨settings, hkept⟩ := ih
      exact ⟨renewal.apply settings, hkept.run hpath hrun⟩

/-- The settings in a file that was not there at first are those asked for last, since the last reset
if there was one. The file is there as soon as anything has been asked for. -/
theorem settings_history (hpath : Path.extension? path = some "json")
    (habsent : FileSystem.held s path = false) (h : Renewed home path s renewals s') :
    ∃ settings, Settings.stored home (some path) s' = .ok settings ∧
      (∀ name, settings.automaton = some name ↔
        Renewal.InForce Renewal.automaton renewals name) ∧
      (∀ layout, settings.layout = some layout ↔ Renewal.InForce Renewal.layout renewals layout) ∧
      (FileSystem.held s' path = true ↔ ∃ renewal ∈ renewals, renewal.Asks) := by
  have hnamed : Settings.path home (some path) = .ok path := if_pos hpath
  obtain ⟨settings, hkept⟩ := exists_kept hnamed habsent h
  exact ⟨settings, hkept.stored, hkept.automaton, hkept.layout, hkept.held⟩

end Renewed

/-- The path of an automaton may be any text, and a reset takes away what is not asked for with it. -/
theorem history_disk :
    ∃ disk : Disk, held (⟨[], []⟩ : Disk) "conf/c.json" = false ∧
      Renewed none "conf/c.json" ⟨[], []⟩
        [⟨some "old", some .legacy, false⟩, ⟨some "\"é\"\n", none, true⟩, ⟨none, none, false⟩] disk ∧
      Settings.stored none (some "conf/c.json") disk = .ok ⟨some "\"é\"\n", none⟩ ∧
      held disk "conf/c.json" = true := by
  let disk (settings : Settings) : Disk :=
    ⟨[("/conf/c.json", .file settings.encode), ("/conf", .directory)], []⟩
  have hfirst : Renews none "conf/c.json" (⟨[], []⟩ : Disk) ⟨some "old", some .legacy, false⟩
      (disk ⟨some "old", some .legacy⟩) :=
    renews_iff.2 ⟨⟨some "old", some .legacy⟩, by decide +kernel⟩
  have hsecond : Renews none "conf/c.json" (disk ⟨some "old", some .legacy⟩)
      ⟨some "\"é\"\n", none, true⟩ (disk ⟨some "\"é\"\n", none⟩) :=
    renews_iff.2 ⟨⟨some "\"é\"\n", none⟩, by decide +kernel⟩
  have hthird : Renews none "conf/c.json" (disk ⟨some "\"é\"\n", none⟩) ⟨none, none, false⟩
      (disk ⟨some "\"é\"\n", none⟩) :=
    renews_iff.2 ⟨⟨some "\"é\"\n", none⟩, by decide +kernel⟩
  have hrenewed := ((Renewed.start.run hfirst).run hsecond).run hthird
  have habsent : held (⟨[], []⟩ : Disk) "conf/c.json" = false := by decide +kernel
  obtain ⟨settings, hstored, hautomaton, hlayout, hheld⟩ :=
    Renewed.settings_history (by decide +kernel) habsent hrenewed
  have hname : settings.automaton = some "\"é\"\n" :=
    (hautomaton _).2 ⟨[_], _, [_], rfl, rfl, by simp⟩
  have hnone : settings.layout = none := by
    refine Option.eq_none_iff_forall_ne_some.2 fun layout hsome => ?_
    simpa only [Renewal.inForce_append_singleton, reduceCtorEq, false_or, Bool.true_eq_false,
      false_and, and_false] using (hlayout layout).1 hsome
  refine ⟨_, habsent, hrenewed, ?_, hheld.2 ⟨⟨some "old", some .legacy, false⟩, by simp, ?_⟩⟩
  · rw [hstored, ← hname, ← hnone]
  · exact .inr (.inl rfl)

end FiniteReach
