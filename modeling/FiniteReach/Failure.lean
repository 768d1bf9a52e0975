import FiniteReach.Format
import FiniteReach.Word

/-!
# Failures

`Failure` unites what can go wrong with descriptions, words, questions and stored automata. A
failure has a message, a chain of causes below it and a kind, and the kind decides the exit code
of a program that stops because of it. That the machine traps is a failure too, but one that takes
the program down.
-/

namespace FiniteReach

/-- Anything that prevents an answer. -/
inductive Failure where
  | load (fault : LoadFault)
  | word (fault : WordFault)
  | index (fault : IndexFault)
  | codec (fault : CodecFault)
  deriving DecidableEq, Repr

/-- What a failure is about. -/
inductive Failure.Kind where
  /-- A file that is missing or cannot be read. -/
  | unreadable
  /-- Numbers or texts that make no sense. -/
  | malformed
  /-- A state or a symbol that the automaton does not have. -/
  | outOfRange
  /-- The machine has trapped. -/
  | trapped
  deriving DecidableEq, Repr

/-- The exit code of a kind. One and two are left to other failures. -/
def Failure.Kind.exitCode : Failure.Kind → Nat
  | .unreadable => 3
  | .malformed => 4
  | .outOfRange => 5
  | .trapped => 101

/-- The kind of a fault in a description. -/
def LoadFault.kind : LoadFault → Failure.Kind
  | .unreadable _ _ => .unreadable
  | .malformed _ => .malformed

/-- What lies below a fault in a description. -/
def LoadFault.causes : LoadFault → List String
  | .unreadable _ cause => [cause.message]
  | .malformed _ => []

/-- The kind of a fault in a stored automaton. A file that fails under the JSON or the binary
format counts as damaged. -/
def CodecFault.kind : CodecFault → Failure.Kind
  | .unwritten _ => .unreadable
  | .description fault => fault.kind
  | .binary _ | .json _ | .record (.fault _) => .malformed
  | .record .trap => .trapped

/-- What lies below a fault in a stored automaton. -/
def CodecFault.causes : CodecFault → List String
  | .binary cause => [cause.message]
  | .json cause => [cause.message]
  | .unwritten cause => [cause.message]
  | .description fault => fault.causes
  | .record _ => []

namespace Failure

/-- The wording of a failure. -/
def message : Failure → String
  | .load fault => fault.message
  | .word fault => s!"invalid word: {fault.message}"
  | .index fault => fault.message
  | .codec fault => fault.message

/-- What lies below a failure, the nearest cause first. -/
def causes : Failure → List String
  | .load fault => fault.causes
  | .word fault => [fault.message]
  | .index _ => []
  | .codec fault => fault.causes

/-- What a failure is about. -/
def kind : Failure → Kind
  | .load fault => fault.kind
  | .word _ => .malformed
  | .index _ => .outOfRange
  | .codec fault => fault.kind

/-- The exit code of a program that stops because of a failure. -/
def exitCode (failure : Failure) : Nat := failure.kind.exitCode

/-- The message and what lies below it. -/
def chain (failure : Failure) : List String := failure.message :: failure.causes

end Failure

end FiniteReach
