import FiniteReach.Automaton.Decision
import FiniteReach.Detection
import FiniteReach.Settings.Storage
import FiniteReach.Text.Quoted

/-!
# Commands

What can be asked about automata in files, and what is answered. `Command.run` works on any file
system. A command prints line by line and may end with a `Complaint`, which has causes and an exit
code; what has been printed by then stays printed.
-/

namespace FiniteReach

/-- Which automaton a command is about. What is left open is taken from the settings or found
out. -/
structure Selection where
  automaton : Option String
  layout : Option Layout
  format : Option Format
  deriving DecidableEq, Repr

/-- What can be asked. -/
inductive Command where
  /-- Whether two words are acceptable. -/
  | check (first second : String) (selection : Selection)
  /-- Whether a state can be reached from another, or which states can. -/
  | reach (source : Nat) (target : Option Nat) (selection : Selection)
  /-- What an automaton is like. -/
  | info (selection : Selection)
  /-- An automaton written in another format. -/
  | convert (input output : String) (fromFormat toFormat : Option Format) (layout : Option Layout)
  /-- The settings, and new ones. -/
  | settings (automaton : Option String) (layout : Option Layout) (reset : Bool)
  deriving DecidableEq, Repr

/-! ## Complaints -/

/-- One of the two words of a question. -/
inductive WordPlace where
  | first
  | second
  deriving DecidableEq, Repr

/-- The wording of a place. -/
def WordPlace.text : WordPlace → String
  | .first => "first"
  | .second => "second"

/-- Why a command has no answer. -/
inductive Complaint where
  | settings (fault : SettingsFault)
  | automaton (path : String) (failure : Failure)
  | word (place : WordPlace) (text : String) (fault : WordFault)
  /-- The words hold symbols that the automaton does not have. -/
  | run (fault : IndexFault)
  /-- The states asked about are none of the automaton. -/
  | state (fault : IndexFault)
  /-- Nothing tells the format of the output. -/
  | noFormat (output : String)
  | uncreated (output : String) (cause : IoFault)
  | unwritten (output : String) (cause : IoFault)
  deriving DecidableEq, Repr

namespace Complaint

/-- The failure behind a complaint. -/
def failure? : Complaint → Option Failure
  | .automaton _ failure => some failure
  | .word _ _ fault => some (.word fault)
  | .run fault | .state fault => some (.index fault)
  | .settings _ | .noFormat _ | .uncreated _ _ | .unwritten _ _ => none

/-- The exit code of a program that complains: that of the failure behind it, or one. -/
def exitCode (complaint : Complaint) : Nat := (complaint.failure?.map Failure.exitCode).getD 1

/-- The messages of a complaint and its causes, the nearest cause last. -/
def chain : Complaint → List String
  | .settings fault => fault.chain
  | .automaton path failure => s!"Failed to load automaton from {path}" :: failure.chain
  | .word place text fault =>
    s!"Failed to read {place.text} word {Text.quoted text}" :: (Failure.word fault).chain
  | .run fault => "Failed to apply words to the automaton" :: (Failure.index fault).chain
  | .state fault => (Failure.index fault).chain
  | .noFormat output => [s!"Cannot determine output format for {output}; pass --to-format"]
  | .uncreated output cause => [s!"Failed to create output file: {output}", cause.message]
  | .unwritten output cause => [s!"Failed to write automaton to {output}", cause.message]

/-- The line that a complaint is printed as. Of a machine that has trapped only the reason is
printed. -/
def line (complaint : Complaint) : String :=
  match complaint with
  | .automaton _ (.codec (.record .trap)) => "capacity overflow\n"
  | _ => "Error: " ++ ": ".intercalate complaint.chain ++ "\n"

end Complaint

/-! ## Answers -/

/-- What is printed first about an automaton: where it is and how it is stored. -/
def Automaton.heading (path : String) (detection : Detection) : List String := [
  "Automaton Information",
  "",
  s!"  Path:      {path}",
  s!"  Format:    {detection.format.name} (detected via {detection.method.text})"]

/-- What is printed about an automaton with so many states that can be reached. -/
def Automaton.figures (A : Automaton) (reached : Nat) : List String := [
  s!"  Alphabet:  {A.alphabetSize} symbol(s)",
  s!"  States:    {A.stateCount}",
  s!"  Initial:   {A.initial}",
  "  Final:     [" ++ ", ".intercalate (A.finals.map toString) ++ "]",
  s!"  Reachable: {reached} of {A.stateCount} state(s) from the initial state"]

/-- What is printed about settings. -/
def Settings.figures (settings : Settings) : List String := [
  s!"  Automaton: {settings.automatonOrDefault}",
  s!"  Layout:    {settings.layoutOrDefault.name}"]

/-! ## Running -/

namespace Command

variable {m : Type → Type} [Monad m] [FileSystem m] {ε α : Type}

/-- Does something of which each fault is a complaint. -/
def attempt (action : m (Except ε α)) (complain : ε → Complaint) : ExceptT Complaint m α :=
  ExceptT.mk ((·.mapError complain) <$> action)

/-- Goes on with a result; a fault in its place is a complaint. -/
def expect (result : Except ε α) (complain : ε → Complaint) : ExceptT Complaint m α :=
  attempt (pure result) complain

/-- The automaton in a file, and how its format was found. -/
def load (path : String) (format : Option Format) (layout : Layout) :
    ExceptT Complaint m (Automaton × Detection) := do
  let opened ← (FileSystem.openRead path : m _)
  expect (Detection.load path opened format layout) (.automaton path)

/-- The settings under a selection. A settings file that is named must make sense; one in the user's
home that makes none is left aside. -/
def settingsFor (home named : Option String) (selection : Selection) :
    ExceptT Complaint m Settings := do
  let stored ← (Settings.load home named : m _)
  let settings ← match named, stored with
    | none, .error _ => pure {}
    | _, stored => expect stored .settings
  return settings.override selection.automaton selection.layout

/-- The automaton of a selection, with its path and how its format was found. -/
def select (home named : Option String) (selection : Selection) :
    ExceptT Complaint m (String × Automaton × Detection) := do
  let settings ← settingsFor home named selection
  let path := settings.automatonOrDefault
  return (path, ← load path selection.format settings.layoutOrDefault)

/-- Writes an automaton to a file. -/
def store (A : Automaton) (output : String) (format : Format) : ExceptT Complaint m Unit := do
  attempt (FileSystem.create output) (.uncreated output)
  attempt (FileSystem.write output (format.encode A)) (.unwritten output)

/-- Whether two words are acceptable for the automaton of a selection. -/
def decision (home named : Option String) (first second : String) (selection : Selection) :
    ExceptT Complaint m Bool := do
  let (_, A, _) ← select home named selection
  let u ← expect (Word.parse first) (.word .first first)
  let v ← expect (Word.parse second) (.word .second second)
  expect (A.acceptable u v) .run

/-- Whether a state of the automaton of a selection can be reached, or which states can, in words. -/
def reached (home named : Option String) (source : Nat) (target : Option Nat)
    (selection : Selection) : ExceptT Complaint m String := do
  let (_, A, _) ← select home named selection
  match target with
  | some target =>
    return if ← expect (A.tryReachable source target) .state then "reachable" else "unreachable"
  | none => return " ".intercalate ((← expect (A.closure source) .state).map toString)

/-- Writes the automaton of one file to another, and returns in which format. -/
def conversion (input output : String) (fromFormat toFormat : Option Format)
    (layout : Option Layout) : ExceptT Complaint m Format := do
  let format ← expect ((toFormat <|> Format.ofPath? output).elim (.error output) .ok) .noFormat
  let (A, _) ← load input fromFormat (layout.getD .stateMajor)
  store A output format
  return format

/-- Replaces some of the settings, or all of them on a reset. They are stored only if something is
to be replaced. -/
def renewal (home named automaton : Option String) (layout : Option Layout) (reset : Bool) :
    ExceptT Complaint m Settings := do
  let stored ← if reset then pure {} else attempt (Settings.load home named) .settings
  let settings := stored.override automaton layout
  if reset || automaton.isSome || layout.isSome then
    attempt (settings.save home named) .settings
  return settings

/-! ## Printing -/

end Command

/-- A computation that prints lines and may end with a complaint, the lines printed so far being its
state. -/
abbrev Dialogue (m : Type → Type) := ExceptT Complaint (StateT (List String) m)

namespace Dialogue

variable {m : Type → Type} [Monad m] {α : Type}

/-- Prints lines. -/
def say (lines : List String) : Dialogue m Unit := ExceptT.lift (modify (· ++ lines))

/-- Does something that prints nothing. -/
def silently (step : ExceptT Complaint m α) : Dialogue m α := ExceptT.mk (StateT.lift step.run)

end Dialogue

namespace Command

variable {m : Type → Type} [Monad m] [FileSystem m]

open Dialogue in
/-- Answers a command. Settings are read from the file that is named, or else from the user's
home. -/
def perform (home named : Option String) : Command → Dialogue m Unit
  | .check first second selection => do
    let acceptable ← silently (decision home named first second selection)
    say [Automaton.verdict acceptable]
  | .reach source target selection => do
    let answer ← silently (reached home named source target selection)
    say [answer]
  | .info selection => do
    let (path, A, detection) ← silently (select home named selection)
    say (Automaton.heading path detection)
    let states ← silently (expect (A.closure A.initial) .state)
    say (A.figures states.length)
  | .convert input output fromFormat toFormat layout => do
    let format ← silently (conversion input output fromFormat toFormat layout)
    say [s!"Converted {input} -> {output} ({format.name})"]
  | .settings automaton layout reset => do
    let settings ← silently (renewal home named automaton layout reset)
    say ["Settings", ""]
    let path ← silently (expect (Settings.path home named) .settings)
    say [s!"  Config:    {path}"]
    say settings.figures

/-- Runs a command. What it prints is there whether or not it ends with a complaint. -/
def run (command : Command) (home named : Option String) :
    m (Except Complaint Unit × String) := do
  let (result, lines) ← (command.perform home named).run.run []
  return (result, String.join (lines.map (· ++ "\n")))

end Command

end FiniteReach
