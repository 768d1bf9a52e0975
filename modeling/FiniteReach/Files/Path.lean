/-!
# Paths

A path names a file by the directories above it, with slashes between. Empty parts and the part
`.` add nothing, except for a `.` at the very front. `extension?` and `parent?` look at the last
part that does name something.
-/

namespace FiniteReach.Path

/-- The part of a path that stays whatever is taken off its end, a slash or a `.` alone, and the
characters after it. -/
def front : List Char → List Char × List Char
  | '/' :: body => (['/'], body)
  | ['.'] => (['.'], [])
  | '.' :: '/' :: body => (['.'], '/' :: body)
  | body => ([], body)

/-- Takes parts that add nothing off the end of a path that is given backwards. -/
def stripBackwards : List Char → List Char
  | '/' :: rest => stripBackwards rest
  | ['.'] => []
  | '.' :: '/' :: rest => stripBackwards rest
  | rest => rest

/-- The characters after the front without parts at their end that add nothing. -/
def strip (body : List Char) : List Char := (stripBackwards body.reverse).reverse

/-- What comes before the last part, and that part; a path that ends at its front has none. -/
def last? (p : List Char) : Option (List Char × List Char) :=
  let (head, body) := front p
  match (strip body).reverse with
  | [] => none
  | backwards =>
    let before := (backwards.dropWhile (· ≠ '/')).tail.reverse
    some (head ++ strip before, (backwards.takeWhile (· ≠ '/')).reverse)

/-- The characters after the last dot of a file's name. A name that has its only dot in front has
no extension, and neither has `..`. -/
def extension? (path : String) : Option String := do
  let (_, name) ← last? path.toList
  if name = ['.', '.'] then none
  else
    let after := (name.reverse.takeWhile (· ≠ '.')).reverse
    if after.length + 1 < name.length then some (String.ofList after) else none

/-- The path of the directory that holds a file; the root has none. -/
def parent? (path : String) : Option String :=
  match last? path.toList with
  | some (before, _) => some (String.ofList before)
  | none => if (front path.toList).1 = ['.'] then some "" else none

/-- A path below a directory. -/
def join (directory name : String) : String :=
  if directory.toList.getLast? = some '/' then directory ++ name else directory ++ "/" ++ name

/-- The parts of a path from the first directory to the file. -/
def parts (path : String) : List String :=
  ((path.toList.splitOnP (· = '/')).filter fun part => !part.isEmpty).map String.ofList

/-- Whether a path starts at the root. -/
def isAbsolute (path : String) : Bool := path.toList.head? = some '/'

/-- Whether a path must be that of a directory because a slash comes last. -/
def namesDirectory (path : String) : Bool := path.toList.getLast? = some '/'

end FiniteReach.Path
