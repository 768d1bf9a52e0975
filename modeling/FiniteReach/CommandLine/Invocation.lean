import FiniteReach.CommandLine.Grammar
import FiniteReach.Commands

/-!
# Invocations

There are two programs. `dfa-reach` decides about two words, and `dfa-tool` has a subcommand for
every command. `Program.read` turns the arguments of a program into a command and the settings file
that is named with it.
-/

namespace FiniteReach.CommandLine

/-- The programs. -/
inductive Program where
  | reach
  | tool
  deriving DecidableEq, Repr

/-- The name of a program. -/
def Program.name : Program → String
  | .reach => "dfa-reach"
  | .tool => "dfa-tool"

/-- What a program answers when it is asked for its version. -/
def Program.version (program : Program) : String := program.name ++ " 0.1.0\n"

/-- The program of a name. -/
def Program.ofName? (name : String) : Option Program :=
  [Program.reach, .tool].find? (·.name = name)

/-- A command and the settings file that is named with it. -/
structure Invocation where
  command : Command
  settingsFile : Option String
  deriving DecidableEq, Repr

/-! ## Grammars -/

/-- The options that every command has. -/
def commonOptions : List OptionRule := [
  ⟨.config, "config", some 'c', .takes .path⟩,
  ⟨.verbose, "verbose", some 'v', .counted⟩,
  ⟨.help, "help", some 'h', .help⟩]

/-- The option of a whole program. -/
def versionOption : OptionRule := ⟨.version, "version", some 'V', .version⟩

/-- The options that select an automaton. -/
def selectionOptions : List OptionRule := [
  ⟨.automaton, "automaton", some 'a', .takes .path⟩,
  ⟨.layout, "layout", some 'l', .takes .layout⟩,
  ⟨.format, "format", some 'f', .takes .format⟩]

/-- The subcommands. -/
inductive Subcommand where
  | check
  | reach
  | info
  | convert
  | settings
  deriving DecidableEq, Repr

namespace Subcommand

/-- The name of a subcommand. -/
def name : Subcommand → String
  | .check => "check"
  | .reach => "reach"
  | .info => "info"
  | .convert => "convert"
  | .settings => "settings"

/-- All subcommands. -/
def all : List Subcommand := [.check, .reach, .info, .convert, .settings]

/-- The subcommand of a name. -/
def ofName? (name : String) : Option Subcommand := all.find? (·.name = name)

/-- What a subcommand can be given besides the options that every command has. -/
def grammar : Subcommand → Grammar
  | .check => ⟨selectionOptions, [⟨.first, .text⟩, ⟨.second, .text⟩], []⟩
  | .reach => ⟨selectionOptions, [⟨.source, .index⟩, ⟨.target, .index⟩], []⟩
  | .info => ⟨selectionOptions, [], []⟩
  | .convert =>
    ⟨[⟨.fromFormat, "from-format", none, .takes .format⟩,
      ⟨.toFormat, "to-format", none, .takes .format⟩,
      ⟨.layout, "layout", some 'l', .takes .layout⟩],
      [⟨.input, .path⟩, ⟨.output, .path⟩], []⟩
  | .settings =>
    ⟨[⟨.setAutomaton, "set-automaton", none, .takes .path⟩,
      ⟨.setLayout, "set-layout", none, .takes .layout⟩,
      ⟨.reset, "reset", none, .flag⟩], [], []⟩

end Subcommand

/-- The name of the subcommand that explains the others. -/
def helpCommand : String := "help"

/-- What `dfa-tool` can be given. -/
def toolGrammar : Grammar :=
  ⟨versionOption :: commonOptions, [], Subcommand.all.map Subcommand.name ++ [helpCommand]⟩

/-! ## What was given -/

/-- What was given for each slot. -/
abbrev Given := List (Slot × Value)

namespace Given

/-- The text for a slot. -/
def text? (given : Given) (slot : Slot) : Option String :=
  match given.lookup slot with
  | some (.text value) => some value
  | _ => none

/-- The format for a slot. -/
def format? (given : Given) (slot : Slot) : Option Format :=
  match given.lookup slot with
  | some (.format value) => some value
  | _ => none

/-- The layout for a slot. -/
def layout? (given : Given) (slot : Slot) : Option Layout :=
  match given.lookup slot with
  | some (.layout value) => some value
  | _ => none

/-- The index for a slot. -/
def index? (given : Given) (slot : Slot) : Option Nat :=
  match given.lookup slot with
  | some (.index value) => some value
  | _ => none

/-- The selection that was made. -/
def selection (given : Given) : Selection where
  automaton := given.text? .automaton
  layout := given.layout? .layout
  format := given.format? .format

/-- What must have been given. -/
def require {α : Type} (value : Option α) : Except UsageFault α :=
  value.elim (.error .missingOperand) .ok

/-- The command of a subcommand, unless an operand is missing. -/
def command (given : Given) : Subcommand → Except UsageFault Command
  | .check => do
    return .check (← require (given.text? .first)) (← require (given.text? .second)) given.selection
  | .reach => do
    return .reach (← require (given.index? .source)) (given.index? .target) given.selection
  | .info => .ok (.info given.selection)
  | .convert => do
    return .convert (← require (given.text? .input)) (← require (given.text? .output))
      (given.format? .fromFormat) (given.format? .toFormat) (given.layout? .layout)
  | .settings =>
    .ok (.settings (given.text? .setAutomaton) (given.layout? .setLayout)
      (given.lookup .reset).isSome)

end Given

/-! ## Reading -/

/-- Reads the arguments of a subcommand, with further options. -/
def Subcommand.read (subcommand : Subcommand) (options : List OptionRule)
    (arguments : List String) : Except UsageFault Invocation := do
  let grammar := subcommand.grammar
  let (progress, _) ← { grammar with options := grammar.options ++ options }.scan {} arguments
  let given : Given := (← progress.settle).given
  return ⟨← given.command subcommand, given.text? .config⟩

/-- What asking for an explanation of subcommands leads to. -/
def explain : (arguments : List String) → UsageFault
  | [] => .helpWanted
  | [name] => if toolGrammar.commands.contains name then .helpWanted else .unknownCommand
  | _ => .unknownCommand

/-- Reads the arguments of `dfa-tool`. The settings file that is named last counts. -/
def readTool (arguments : List String) : Except UsageFault Invocation := do
  match ← toolGrammar.scan {} arguments with
  | (progress, none) =>
    let progress ← progress.settle
    throw (if progress.given.isEmpty then .nothingGiven else .missingCommand)
  | (progress, some (name, arguments)) =>
    match Subcommand.ofName? name with
    | none => throw (explain arguments)
    | some subcommand =>
      let invocation ← subcommand.read commonOptions arguments
      let given : Given := (← progress.settle).given
      return { invocation with settingsFile := invocation.settingsFile <|> given.text? .config }

/-- Reads the arguments of a program. -/
def Program.read (program : Program) (arguments : List String) : Except UsageFault Invocation :=
  match program with
  | .reach => Subcommand.check.read (versionOption :: commonOptions) arguments
  | .tool => readTool arguments

end FiniteReach.CommandLine
