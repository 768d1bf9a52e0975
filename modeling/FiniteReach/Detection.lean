import FiniteReach.Failure
import FiniteReach.Files.Path

/-!
# Finding the format of a file

The format that a user names is binding, and so is a known extension. Otherwise the first bytes
decide: a brace after blanks is JSON, printable ASCII and blanks are a description, and anything
else is binary. Such a guess is only tried; a file that it does not fit is read as a description,
unless the trial has trapped.
-/

namespace FiniteReach

/-- How a format was found. -/
inductive Method where
  | extension
  | content
  | user
  deriving DecidableEq, Repr

/-- The wording of a method. -/
def Method.text : Method → String
  | .extension => "heuristic (file extension)"
  | .content => "heuristic (content analysis)"
  | .user => "user specified"

/-- A format and how it was found. -/
structure Detection where
  format : Format
  method : Method
  deriving DecidableEq, Repr

/-- Why the first bytes of a file could not be looked at. -/
inductive DetectionFault where
  | unopened (path : String) (cause : IoFault)
  | unread (path : String) (cause : IoFault)
  deriving DecidableEq, Repr

/-- The message of a fault and its cause. -/
def DetectionFault.chain : DetectionFault → List String
  | .unopened path cause => [s!"Failed to open file: {path}", cause.message]
  | .unread path cause => [s!"Failed to read file: {path}", cause.message]

namespace Format

/-- The format that the extension of a path tells. -/
def ofPath? (path : String) : Option Format := (Path.extension? path).bind ofExtension?

/-- The bytes between the words of a printed text. -/
def isSpace (b : UInt8) : Bool := b = 32 || b = 9 || b = 10 || b = 12 || b = 13

/-- The bytes of printed ASCII characters. -/
def isGraphic (b : UInt8) : Bool := 33 ≤ b && b ≤ 126

/-- How many bytes are looked at. -/
def headSize : Nat := 512

/-- The format that the first bytes of a file suggest. -/
def ofHead (head : Bytes) : Format :=
  if head.find? (fun b => !isSpace b) = some 123 then .json
  else if head.all fun b => isGraphic b || isSpace b then .text
  else .binary

/-- The format that a file's content suggests. `opened` is the result of opening the file. -/
def ofContent (path : String) (opened : Except IoFault Source) : Except DetectionFault Format :=
  match opened with
  | .error cause => .error (.unopened path cause)
  | .ok src =>
    match src.bytes, src.failure with
    | [], some cause => .error (.unread path cause)
    | bytes, _ => .ok (ofHead (bytes.take headSize))

end Format

namespace Detection

/-- The format of a file and how it was found. -/
def detect (path : String) (opened : Except IoFault Source) (user : Option Format) :
    Except DetectionFault Detection :=
  match user with
  | some format => .ok ⟨format, .user⟩
  | none =>
    match Format.ofPath? path with
    | some format => .ok ⟨format, .extension⟩
    | none => (Format.ofContent path opened).map fun format => ⟨format, .content⟩

/-- The automaton in a file of a known format; the layout is that of a description. -/
def loadAs (path : String) (opened : Except IoFault Source) (layout : Layout) (format : Format) :
    Except Failure Automaton :=
  match opened with
  | .error cause => .error (.load (.unreadable (some path) cause))
  | .ok src =>
    match format with
    | .text => (Description.load layout src (some path)).mapError .load
    | _ => (format.load src).mapError .codec

/-- What a trial of the format that a file's content suggests comes to. A trial that fails comes to
nothing, unless the machine has trapped. -/
def tryContent (path : String) (opened : Except IoFault Source) (layout : Layout) :
    Option (Except Failure (Automaton × Detection)) := do
  let format ← (Format.ofContent path opened).toOption.filter (· ≠ .text)
  match loadAs path opened layout format with
  | .ok A => return .ok (A, ⟨format, .content⟩)
  | .error failure => if failure.kind = .trapped then return .error failure else none

/-- The automaton in a file of which only the content tells the format. -/
def loadByContent (path : String) (opened : Except IoFault Source) (layout : Layout) :
    Except Failure (Automaton × Detection) :=
  (tryContent path opened layout).getD <|
    (loadAs path opened layout .text).map fun A => (A, ⟨.text, .content⟩)

/-- The automaton in a file and how its format was found. -/
def load (path : String) (opened : Except IoFault Source) (user : Option Format) (layout : Layout) :
    Except Failure (Automaton × Detection) :=
  match user with
  | some format => (loadAs path opened layout format).map fun A => (A, ⟨format, .user⟩)
  | none =>
    match Format.ofPath? path with
    | some format => (loadAs path opened layout format).map fun A => (A, ⟨format, .extension⟩)
    | none => loadByContent path opened layout

end Detection

end FiniteReach
