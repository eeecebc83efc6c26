import FeedAudit.Settings.File
import FeedAudit.Settings.Layers
import FeedAudit.Settings.Validity

/-!
# Loading settings

The settings file is the one that the command line names, or the first that exists of the files
looked for in the working directory and then in the configuration directory of the user. The
environment and the command line are put in front of it, and the result must be valid.
-/

namespace FeedAudit

/-- How files are looked at. -/
structure FileAccess (m : Type → Type) where
  readText : String → m (Except IoFault String)
  exists_ : String → m Bool

/-- The directory in which a user keeps settings, given the variables that may name it; only one
that starts at the root counts. -/
def userConfigDir (configHome home : Option String) : Option String :=
  match configHome with
  | some dir => if Path.isAbsolute dir then some dir else home.map fun h => Path.join h ".config"
  | none => home.map fun h => Path.join h ".config"

/-- The names of settings files, in the order in which they are looked for. -/
def settingsFileNames : List String :=
  ["validate-feed.toml", "validate-feed.json", ".validate-feed.toml", ".validate-feed.json"]

/-- The paths of settings files, in the order in which they are looked for. -/
def settingsPaths (userDir : Option String) : List String :=
  settingsFileNames ++
    match userDir with
    | some dir => settingsFileNames.map fun name => Path.join (Path.join dir "validate-feed") name
    | none => []

namespace Settings

/-- The settings that a file, the environment and the command line make together. -/
def layered (file : Option Settings) (env : Environment) (a : Arguments) :
    Except SettingsError Settings := do
  let base :=
    match file with
    | some settings => ({} : Settings).overriddenBy settings
    | none => {}
  let settings := (← base.withEnvironment env).withArguments a
  settings.validate
  return settings

variable {m : Type → Type} [Monad m]

/-- Reads the settings file at a path. -/
def ofPath (files : FileAccess m) (path : String) : m (Except SettingsError Settings) := do
  match ← files.readText path with
  | .error fault => return .error (.io fault)
  | .ok text => return ofFile path text

/-- The first path that exists. -/
def firstExisting (files : FileAccess m) : List String → m (Option String)
  | [] => return none
  | path :: rest => do
    if ← files.exists_ path then return some path
    firstExisting files rest

/-- The path of the settings file, if there is one. -/
def filePath? (files : FileAccess m) (userDir : Option String) (a : Arguments) :
    m (Option String) :=
  match a.config with
  | some path => return some path
  | none => firstExisting files (settingsPaths userDir)

/-- Loads the settings of a run. -/
def load (files : FileAccess m) (userDir : Option String) (env : Environment) (a : Arguments) :
    m (Except SettingsError Settings) := do
  match ← filePath? files userDir a with
  | none => return layered none env a
  | some path =>
    match ← ofPath files path with
    | .error e => return .error e
    | .ok file => return layered (some file) env a

end Settings

end FeedAudit
