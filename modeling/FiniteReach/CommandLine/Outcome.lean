import FiniteReach.CommandLine.Invocation

/-!
# Outcomes

What comes of running a program: what it prints and the code it exits with, or the reason why its
command line is not run.
-/

namespace FiniteReach.CommandLine

/-- What comes of running a program. -/
inductive Outcome where
  | answered (output : String)
  /-- The output is what was printed before the complaint. -/
  | complained (output : String) (complaint : Complaint)
  | refused (fault : UsageFault)
  deriving DecidableEq, Repr

/-- How a program is used, in short. -/
def Program.usage (program : Program) : String :=
  match program with
  | .reach => "Usage: dfa-reach [OPTIONS] <WORD1> <WORD2>\n"
  | .tool =>
    "Usage: dfa-tool [OPTIONS] <COMMAND>\n\nCommands: "
      ++ ", ".intercalate toolGrammar.commands ++ "\n"

namespace Outcome

/-- The exit code of a program. -/
def exitCode : Outcome → Nat
  | .answered _ => 0
  | .complained _ complaint => complaint.exitCode
  | .refused fault => fault.exitCode

/-- What a program writes as its output. -/
def output (program : Program) : Outcome → String
  | .answered output | .complained output _ => output
  | .refused .versionWanted => program.version
  | .refused .helpWanted => program.usage
  | .refused _ => ""

/-- What a program writes about its failure. -/
def report (program : Program) : Outcome → String
  | .complained _ complaint => complaint.line
  | .answered _ | .refused .versionWanted | .refused .helpWanted => ""
  | .refused fault => s!"error: {fault.message}\n\n" ++ program.usage

end Outcome

variable {m : Type → Type} [Monad m] [FileSystem m]

/-- Runs the command of an invocation. -/
def Invocation.run (invocation : Invocation) (home : Option String) : m Outcome := do
  match ← invocation.command.run home invocation.settingsFile with
  | (.ok (), output) => return .answered output
  | (.error complaint, output) => return .complained output complaint

/-- Runs a program. -/
def Program.run (program : Program) (home : Option String) (arguments : List String) :
    m Outcome :=
  match program.read arguments with
  | .error fault => return .refused fault
  | .ok invocation => invocation.run home

end FiniteReach.CommandLine
