import FiniteReach.Description.Layout
import FiniteReach.Files.Path
import FiniteReach.Json.Printer
import FiniteReach.Json.Value

/-!
# Settings

Settings are the automaton and the layout that a user wants when none is named. They are kept in a
JSON file with one field for each, `null` or left out if the user has no wish.
-/

namespace FiniteReach

/-- What a user has set. -/
structure Settings where
  automaton : Option String := none
  layout : Option Layout := none
  deriving DecidableEq, Repr

/-- Why settings could not be read or written. -/
inductive SettingsFault where
  /-- There is no place for a user's settings. -/
  | noHome
  /-- A file for settings has another extension, or none. -/
  | extension (found : Option String)
  | unread (path : String) (cause : IoFault)
  | malformed (path : String) (cause : Json.Fault)
  /-- The directory of the file could not be made. -/
  | noDirectory (directory : String) (cause : IoFault)
  | unwritten (path : String) (cause : IoFault)
  deriving DecidableEq, Repr

/-- The message of a fault and its cause. -/
def SettingsFault.chain : SettingsFault → List String
  | .noHome => ["Could not determine configuration directory"]
  | .extension (some found) =>
    [s!"Config file must have .json extension, got .{found}. Please use a .json file."]
  | .extension none => ["Config file must have .json extension. Please add .json to the filename."]
  | .unread path cause => [s!"Failed to read config file: {path}", cause.message]
  | .malformed path cause => [s!"Failed to parse config file: {path}", cause.message]
  | .noDirectory directory cause => [s!"Failed to create directory: {directory}", cause.message]
  | .unwritten path cause => [s!"Failed to write config file: {path}", cause.message]

namespace Settings

/-- The automaton of a user who wants none in particular. -/
def defaultAutomaton : String := "./test_automat"

/-- The automaton that is wanted. -/
def automatonOrDefault (settings : Settings) : String := settings.automaton.getD defaultAutomaton

/-- The layout that is wanted. -/
def layoutOrDefault (settings : Settings) : Layout := settings.layout.getD .stateMajor

/-- Settings with some of them replaced. -/
def override (settings : Settings) (automaton : Option String) (layout : Option Layout) :
    Settings where
  automaton := automaton <|> settings.automaton
  layout := layout <|> settings.layout

/-! ## Where settings are kept -/

/-- The file of the settings: the one that is named, which must be a JSON file, or the one in the
user's home for settings. -/
def path (home named : Option String) : Except SettingsFault String :=
  match named, home with
  | some path, _ =>
    let found := Path.extension? path
    if found = some "json" then .ok path else .error (.extension found)
  | none, some home => .ok (Path.join (Path.join home "dfa-reach") "config.json")
  | none, none => .error .noHome

/-! ## Reading -/

open Json Json.Reader in
/-- The name of a layout, from its opening quote on. -/
def layoutName : Reader Layout := do
  drop
  let name ← text
  if name = Layout.stateMajor.name then return .stateMajor
  else if name = Layout.legacy.name then return .legacy
  else throw (.unknownVariant name Layout.stateMajor.name Layout.legacy.name)

open Json Json.Reader in
/-- A layout: its name, or an object whose only key is the name and whose value is `null`. -/
def layoutValue : Reader Layout := do
  let b ← start
  if b = 34 then layoutName
  else if b = 123 then do
    drop
    if !(← objectGoesOn true) then throw .expectedValue
    let layout ← layoutName
    colon
    null "unit"
    match ← skipBlanks with
    | none => throw .endInObject
    | some b => if b = 125 then do drop; return layout else throw .expectedValue
  else throw .expectedValue

/-- Settings of which not every field has been read. -/
structure Draft where
  automaton : Option (Option String) := none
  layout : Option (Option Layout) := none

open Json Json.Reader in
/-- The fields of settings. -/
def shape : Shape Draft where
  title := "struct PersistentConfig"
  fields := [
    ⟨"automaton_path", fun d => d.automaton.isSome, fun d => do
      return { d with automaton := some (← nullable (quotedText "path string")) }⟩,
    ⟨"layout", fun d => d.layout.isSome, fun d => do
      return { d with layout := some (← nullable layoutValue) }⟩]

/-- Reads settings. -/
def value : Json.Reader Settings := do
  let draft ← Json.Reader.record shape {}
  return ⟨draft.automaton.join, draft.layout.join⟩

/-- The settings in the file of a path, of which `opened` is the result of opening it. The file
must hold text. -/
def read (path : String) (opened : Except IoFault Source) : Except SettingsFault Settings := do
  let content ← (opened.bind Source.contents).mapError (.unread path)
  if (Text.ofUtf8? content).isNone then throw (.unread path .invalidText)
  (Json.document value (.ofBytes content)).mapError (.malformed path)

/-! ## Writing -/

/-- The content of a settings file. -/
def encode (settings : Settings) : Bytes :=
  let orNull (name : Option String) : Pieces := (name.map Json.Print.text).getD Json.Print.null
  (Json.Print.object 0 [
    ("automaton_path", orNull settings.automaton),
    ("layout", orNull (settings.layout.map Layout.name))]).flatten

end Settings

end FiniteReach
