import FiniteReach.Files.FileSystem
import FiniteReach.Settings

/-!
# Stored settings

Settings without a file are the defaults. Storing them makes the directory of their file.
-/

namespace FiniteReach.Settings

variable {m : Type → Type} [Monad m] [FileSystem m]

/-- The settings that are stored in the file of a name, or in the user's home. -/
def load (home named : Option String) : m (Except SettingsFault Settings) := do
  match path home named with
  | .error fault => return .error fault
  | .ok path =>
    if ← FileSystem.holds path then return read path (← FileSystem.openRead path)
    else return .ok {}

/-- Puts settings into the file of a path. -/
def write (settings : Settings) (path : String) : m (Except SettingsFault Unit) := do
  match ← FileSystem.create path with
  | .error cause => return .error (.unwritten path cause)
  | .ok () => return (← FileSystem.write path settings.encode).mapError (.unwritten path)

/-- Stores settings in the file of a name, or in the user's home. -/
def save (settings : Settings) (home named : Option String) : m (Except SettingsFault Unit) := do
  match path home named with
  | .error fault => return .error fault
  | .ok path =>
    let parent := (Path.parent? path).getD ""
    if parent = "" then settings.write path
    else
      match ← FileSystem.makeDirectories parent with
      | .error cause => return .error (.noDirectory parent cause)
      | .ok () => settings.write path

end FiniteReach.Settings
