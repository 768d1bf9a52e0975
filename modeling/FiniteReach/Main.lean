import FiniteReach.CommandLine.Outcome

/-!
# The executable

The program is chosen by the name that the executable has been given. Everything it does beyond
reading and writing files is done by `Program.run`.
-/

namespace FiniteReach

/-- A fault by the code and the wording that the system has for it. -/
def IoFault.ofCode (code : UInt32) (details : String) : IoFault :=
  if code = 2 then .notFound
  else if code = 17 then .alreadyExists
  else if code = 20 then .notADirectory
  else if code = 21 then .isADirectory
  else if code = 36 then .nameTooLong
  else .device s!"{details} (os error {code})"

/-- The fault that an error of the system is. -/
def IoFault.ofError : IO.Error → IoFault
  | .noFileOrDirectory _ code details | .inappropriateType _ code details
  | .alreadyExists _ code details | .invalidArgument _ code details
  | .permissionDenied _ code details | .resourceExhausted _ code details
  | .resourceBusy code details | .hardwareFault code details | .otherError code details =>
    .ofCode code details
  | error => .device (toString error)

/-- Does something with files. -/
def attempted {α : Type} (action : IO α) : IO (Except IoFault α) := do
  match ← action.toBaseIO with
  | .ok value => return .ok value
  | .error error => return .error (.ofError error)

/-- Makes a directory if it is not there. -/
def makeDirectory (path : String) : IO (Except IoFault Unit) := do
  match ← attempted (IO.FS.createDir path) with
  | .error .alreadyExists =>
    match ← attempted (IO.FS.realPath path) with
    | .ok place => return if ← place.isDir then .ok () else .error .alreadyExists
    | .error _ => return .error .alreadyExists
  | result => return result

/-- Makes a directory; those above it, which have shorter paths, are asked for only if the system
misses one of them. Each step up takes one off `bound`, which is at least the path's length. -/
def makeDirectories (path : String) : (bound : Nat) → IO (Except IoFault Unit)
  | 0 => return .ok ()
  | bound + 1 => do
    if path = "" then return .ok ()
    match ← makeDirectory path, Path.parent? path with
    | .error .notFound, some above =>
      match ← makeDirectories above bound with
      | .ok () => makeDirectory path
      | .error fault => return .error fault
    | result, _ => return result

instance : FileSystem IO where
  openRead path := do
    match ← attempted (IO.FS.Handle.mk path .read) with
    | .error fault => return .error fault
    | .ok handle =>
      match ← attempted handle.readBinToEnd with
      | .error fault => return .ok ⟨[], some fault⟩
      | .ok content => return .ok (.ofBytes content.toList)
  holds path := return (← attempted (IO.FS.realPath path)).isOk
  create path := attempted (IO.FS.writeBinFile path .empty)
  write path content := attempted (IO.FS.writeBinFile path ⟨content.toArray⟩)
  makeDirectories path := makeDirectories path path.length

/-- The directory for a user's settings. -/
def settingsHome : IO (Option String) := do
  match (← IO.getEnv "XDG_CONFIG_HOME").filter Path.isAbsolute with
  | some home => return some home
  | none => return (← IO.getEnv "HOME").map (Path.join · ".config")

end FiniteReach

open FiniteReach CommandLine in
/-- Runs the program of the executable's name, or `dfa-tool`. -/
def main (arguments : List String) : IO UInt32 := do
  let program := ((← IO.appPath).fileName.bind Program.ofName?).getD .tool
  let outcome ← program.run (← settingsHome) arguments
  IO.print (outcome.output program)
  IO.eprint (outcome.report program)
  return UInt32.ofNat outcome.exitCode
