import FiniteReach.Format

/-!
# The grammar of command lines

A command line holds options, which start with dashes, and operands, which do not. A `Grammar` lists
the options, operands and subcommands of one command, and `Grammar.scan` reads arguments by it from
left to right up to a subcommand. A value is checked only when the argument after it has been
recognised, so an unknown argument is reported before a bad value in front of it.
-/

namespace FiniteReach.CommandLine

/-- Why a command line is not run. -/
inductive UsageFault where
  | helpWanted
  | versionWanted
  /-- There are no arguments where there should be some. -/
  | nothingGiven
  | missingCommand
  | unknownCommand
  | missingOperand
  /-- An option that is not known, or an operand too many. -/
  | unknownArgument
  /-- A value that is missing, is not one of those allowed or is an empty path. -/
  | invalidValue
  /-- A value that says nothing of the kind. -/
  | rejectedValue
  | repeatedOption
  /-- A value for an option that takes none. -/
  | unwantedValue
  deriving DecidableEq, Repr

/-- The wording of a fault. -/
def UsageFault.message : UsageFault → String
  | .helpWanted => "help is wanted"
  | .versionWanted => "the version is wanted"
  | .nothingGiven => "no arguments are given"
  | .missingCommand => "a subcommand is missing"
  | .unknownCommand => "there is no such subcommand"
  | .missingOperand => "an operand is missing"
  | .unknownArgument => "there is no place for an argument"
  | .invalidValue => "a value is missing or not allowed"
  | .rejectedValue => "a value makes no sense"
  | .repeatedOption => "an option is repeated"
  | .unwantedValue => "an option takes no value"

/-- The exit code of a program whose command line is not run. -/
def UsageFault.exitCode : UsageFault → Nat
  | .helpWanted | .versionWanted => 0
  | _ => 2

/-- What can be given on a command line. -/
inductive Slot where
  | help
  | version
  | verbose
  | config
  | automaton
  | layout
  | format
  | fromFormat
  | toFormat
  | setAutomaton
  | setLayout
  | reset
  | first
  | second
  | source
  | target
  | input
  | output
  deriving DecidableEq, Repr

/-- What is given for a slot. -/
inductive Value where
  /-- The slot takes no value. -/
  | present
  | text (value : String)
  | format (value : Format)
  | layout (value : Layout)
  | index (value : Nat)
  deriving DecidableEq, Repr

/-! ## Values -/

/-- What a slot takes. -/
inductive ValueKind where
  | text
  | path
  | format
  | layout
  | index
  deriving DecidableEq, Repr

/-- The index that a text denotes: digits, with or without a plus before them. -/
def index? (text : String) : Option Nat :=
  let run := match Text.utf8 text with
    | 43 :: run => run
    | run => run
  if run.isEmpty || run.any (fun b => !Numeral.isDigit b) then none else Numeral.below? limit run

/-- The value that a text is. -/
def ValueKind.read (kind : ValueKind) (given : String) : Except UsageFault Value :=
  match kind with
  | .text => .ok (.text given)
  | .path => if given = "" then .error .invalidValue else .ok (.text given)
  | .format => ((Format.ofName? given).map Value.format).elim (.error .invalidValue) .ok
  | .layout => (Layout.ofName given).toOption.elim (.error .rejectedValue) (.ok ∘ .layout)
  | .index => (index? given).elim (.error .rejectedValue) (.ok ∘ .index)

/-! ## Grammars -/

/-- What an option does. -/
inductive Effect where
  /-- Takes a value. -/
  | takes (kind : ValueKind)
  /-- Is there or not. -/
  | flag
  /-- Is there any number of times. -/
  | counted
  /-- Ends the program with a help text. -/
  | help
  /-- Ends the program with its version. -/
  | version
  deriving DecidableEq, Repr

/-- An option by its names. -/
structure OptionRule where
  slot : Slot
  /-- The name after two dashes. -/
  long : String
  /-- The name after one dash. -/
  short : Option Char
  effect : Effect
  deriving DecidableEq, Repr

/-- An operand by its place among the operands. -/
structure OperandRule where
  slot : Slot
  kind : ValueKind
  deriving DecidableEq, Repr

/-- What a command can be given. -/
structure Grammar where
  options : List OptionRule
  operands : List OperandRule
  commands : List String
  deriving DecidableEq, Repr

/-! ## What has been read -/

/-- A value that has not been checked. -/
structure Pending where
  slot : Slot
  kind : ValueKind
  /-- There is no text as long as the option before waits for one. -/
  text : Option String
  deriving DecidableEq, Repr

/-- Where a reader of arguments stands. -/
structure Progress where
  given : List (Slot × Value) := []
  pending : Option Pending := none
  /-- How many operands there were. -/
  operands : Nat := 0
  /-- Whether two dashes alone have made all that follows operands. -/
  isLiteral : Bool := false
  deriving DecidableEq, Repr

namespace Progress

/-- Whether there is something for a slot. -/
def holds (progress : Progress) (slot : Slot) : Bool := (progress.given.lookup slot).isSome

/-- Whether an option waits for its value. -/
def awaitsValue (progress : Progress) : Bool := progress.pending.any (·.text.isNone)

/-- Checks the value that has not been checked. -/
def settle (progress : Progress) : Except UsageFault Progress :=
  match progress.pending with
  | none => .ok progress
  | some ⟨_, _, none⟩ => .error .invalidValue
  | some ⟨slot, kind, some text⟩ =>
    if progress.holds slot then .error .repeatedOption
    else (kind.read text).map fun value =>
      { progress with given := (slot, value) :: progress.given, pending := none }

/-- Takes an option with the text that is attached to it. -/
def take (progress : Progress) (option : OptionRule) (attached : Option String) :
    Except UsageFault Progress :=
  match option.effect, attached with
  | .takes kind, some text => do
    let progress ← progress.settle
    settle { progress with pending := some ⟨option.slot, kind, some text⟩ }
  | .takes kind, none => do
    let progress ← progress.settle
    return { progress with pending := some ⟨option.slot, kind, none⟩ }
  | _, some _ => .error .unwantedValue
  | .flag, none => do
    let progress ← progress.settle
    if progress.holds option.slot then throw .repeatedOption
    return { progress with given := (option.slot, .present) :: progress.given }
  | .counted, none => do
    let progress ← progress.settle
    return { progress with given := (option.slot, .present) :: progress.given }
  | .help, none => do
    let _ ← progress.settle
    throw .helpWanted
  | .version, none => do
    let _ ← progress.settle
    throw .versionWanted

end Progress

/-! ## Reading arguments -/

namespace Grammar

/-- What an argument that is one operand too many is. -/
def surplus (grammar : Grammar) (isLiteral : Bool) (argument : String) : UsageFault :=
  if grammar.commands.isEmpty || (isLiteral && grammar.commands.contains argument) then
    .unknownArgument
  else .unknownCommand

/-- Takes an operand. -/
def operand (grammar : Grammar) (progress : Progress) (argument : String) :
    Except UsageFault Progress :=
  match grammar.operands[progress.operands]? with
  | none => .error (grammar.surplus progress.isLiteral argument)
  | some rule => do
    let progress ← progress.settle
    return { progress with
      pending := some ⟨rule.slot, rule.kind, some argument⟩
      operands := progress.operands + 1 }

/-- Takes what follows two dashes: the name of an option, with or without a value after an equals
sign. -/
def long (grammar : Grammar) (progress : Progress) (characters : List Char) :
    Except UsageFault Progress :=
  let (name, rest) := characters.span (· ≠ '=')
  match grammar.options.find? (·.long = String.ofList name) with
  | none => .error .unknownArgument
  | some option => progress.take option (rest.tail?.map String.ofList)

/-- Takes what follows one dash: options of one character each, of which the last may have its
value attached. -/
def cluster (grammar : Grammar) (progress : Progress) : List Char → Except UsageFault Progress
  | [] => .ok progress
  | c :: rest =>
    match grammar.options.find? (·.short = some c) with
    | none => .error .unknownArgument
    | some option =>
      match option.effect, rest with
      | .takes _, [] => progress.take option none
      | .takes _, '=' :: text => progress.take option (some (String.ofList text))
      | .takes _, text => progress.take option (some (String.ofList text))
      | _, rest => do grammar.cluster (← progress.take option none) rest

/-- Takes an argument that is no subcommand. -/
def step (grammar : Grammar) (progress : Progress) (argument : String) :
    Except UsageFault Progress :=
  if progress.isLiteral then grammar.operand progress argument
  else
    match argument.toList, progress.pending with
    | ['-', '-'], _ => .ok { progress with isLiteral := true }
    | '-' :: '-' :: name, _ => grammar.long progress name
    | '-' :: c :: cluster, _ => grammar.cluster progress (c :: cluster)
    | _, some ⟨slot, kind, none⟩ =>
      .ok { progress with pending := some ⟨slot, kind, some argument⟩ }
    | _, _ => grammar.operand progress argument

/-- Reads arguments up to a subcommand. The rest is the subcommand and its arguments. -/
def scan (grammar : Grammar) (progress : Progress) :
    (arguments : List String) → Except UsageFault (Progress × Option (String × List String))
  | [] => .ok (progress, none)
  | argument :: arguments =>
    if !progress.isLiteral && !progress.awaitsValue && grammar.commands.contains argument then
      .ok (progress, some (argument, arguments))
    else do grammar.scan (← grammar.step progress argument) arguments

end Grammar

end FiniteReach.CommandLine
