import FiniteReach.Files.Path
import FiniteReach.Source

/-!
# Disks

A disk is a tree of directories and files with a working directory in it. A path is followed part by
part from the root or the working directory; every directory on the way must be there, also before
`..`. Nothing is a link and nothing is forbidden, so the only faults are those of `IoFault`.
-/

namespace FiniteReach

/-- What a place on a disk holds. -/
inductive Entry where
  | file (content : Bytes)
  | directory
  deriving DecidableEq, Repr

/-- A place on a disk: the names that lead there from the root, each after a slash. The root itself
is the empty text. -/
abbrev Place := String

/-- A tree of directories and files. -/
structure Disk where
  /-- What is where; of two entries for one place the first counts. The root is always there. -/
  entries : List (Place × Entry)
  /-- The names that lead to where relative paths start. -/
  workingDirectory : List String
  deriving DecidableEq, Repr

namespace Disk

/-- What a place holds. -/
def entry? (disk : Disk) (place : Place) : Option Entry :=
  if place = "" then some .directory else disk.entries.lookup place

/-- The disk with another entry at a place. -/
def put (disk : Disk) (place : Place) (entry : Entry) : Disk :=
  { disk with entries := (place, entry) :: disk.entries.filter fun (other, _) => other ≠ place }

/-! ## Following paths -/

/-- The places from one below the root to where a path has led, the last one first. -/
abbrev Trail := List Place

/-- Where a trail ends. -/
def Trail.last (trail : Trail) : Place := trail.headD ""

/-- Follows one part of a path. Where it leads there need be nothing. -/
def follow (disk : Disk) (trail : Trail) (part : String) : Except IoFault Trail :=
  match disk.entry? trail.last with
  | none => .error .notFound
  | some (.file _) => .error .notADirectory
  | some .directory =>
    if part = "." then .ok trail
    else if part = ".." then .ok trail.tail
    else if 255 < part.utf8ByteSize then .error .nameTooLong
    else .ok ((trail.last ++ "/" ++ part) :: trail)

/-- The parts that lead from the root to what a path names. -/
def partsFromRoot (disk : Disk) (path : String) : Except IoFault (List String) :=
  if path.toList.contains '\x00' then .error .nulInName
  else if path = "" then .error .notFound
  else if 4096 ≤ path.utf8ByteSize then .error .nameTooLong
  else if Path.isAbsolute path then .ok (Path.parts path)
  else .ok (disk.workingDirectory ++ Path.parts path)

/-- The place that a path names. -/
def locate (disk : Disk) (path : String) : Except IoFault Place := do
  return Trail.last (← (← disk.partsFromRoot path).foldlM disk.follow [])

/-! ## Reading -/

/-- What a path names. -/
def find (disk : Disk) (path : String) : Except IoFault Entry := do
  match disk.entry? (← disk.locate path) with
  | none => .error .notFound
  | some .directory => return .directory
  | some (.file content) =>
    if Path.namesDirectory path then .error .notADirectory else return .file content

/-- The source that reads what a path names. A directory can be opened and not read. -/
def openRead (disk : Disk) (path : String) : Except IoFault Source := do
  match ← disk.find path with
  | .file content => return .ofBytes content
  | .directory => return ⟨[], some .isADirectory⟩

/-- Whether a path names something. -/
def holds (disk : Disk) (path : String) : Bool := (disk.find path).isOk

/-! ## Writing -/

/-- The place of the file that writing to a path creates or replaces. No file can be meant where a
slash comes last, whatever the name before it is. -/
def target (disk : Disk) (path : String) : Except IoFault Place := do
  if Path.namesDirectory path then
    let _ ← ((← disk.partsFromRoot path).dropLast ++ ["."]).foldlM disk.follow []
    throw .isADirectory
  else
    let place ← disk.locate path
    if disk.entry? place = some .directory then throw .isADirectory
    return place

/-- Gives the file of a path new content. -/
def write (disk : Disk) (path : String) (content : Bytes) : Except IoFault Unit × Disk :=
  match disk.target path with
  | .error fault => (.error fault, disk)
  | .ok place => (.ok (), disk.put place (.file content))

/-- Follows parts of a path and makes the directories on the way that are missing. Until one is
missing only the directory of the whole path is asked for, from there on (`singly`) that of each
part. A file that is asked for is there already; one that is not asked for is no directory. -/
def makeAlong (disk : Disk) (singly : Bool) (trail : Trail) :
    List String → Except IoFault Unit × Disk
  | [] => (.ok (), disk)
  | part :: parts =>
    match disk.follow trail part with
    | .error fault => (.error fault, disk)
    | .ok trail =>
      match disk.entry? trail.last with
      | some .directory => disk.makeAlong singly trail parts
      | some (.file _) =>
        (.error (if singly || parts.isEmpty then .alreadyExists else .notADirectory), disk)
      | none => (disk.put trail.last .directory).makeAlong true trail parts

/-- Makes a directory and those above it that are missing. -/
def makeDirectories (disk : Disk) (path : String) : Except IoFault Unit × Disk :=
  match disk.partsFromRoot path with
  | .error fault => (.error fault, disk)
  | .ok parts => disk.makeAlong false [] parts

end Disk

end FiniteReach
