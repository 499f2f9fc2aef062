import CardAccess.CommandLine.SettingsFile
import CardAccess.CommandLine.Variable

/-!
# What the program is set up with

Settings of the environment go before those of the file, name by name, and what
neither of them says has a default.
-/

namespace CardAccess
namespace CommandLine

/-- A setting that does not have the form it should have. -/
structure SettingFault where
  found : String
  expected : String
  name : List String
  source : SettingSource
  deriving DecidableEq, Repr

def SettingFault.message (f : SettingFault) : String :=
  let key := match f.source with
    | .file _ => ".".intercalate ("default" :: f.name)
    | .environment =>
      ".".intercalate (f.name.map fun part => String.ofList (part.toList.map Char.toUpper))
  "invalid type: found " ++ f.found ++ ", expected " ++ f.expected ++ " for key "
    ++ Text.quoted key ++ " in " ++ f.source.display

/-- What a request can take from the settings. -/
structure Settings where
  outputDirectory : String
  signerAlias : Option String
  keys : List (String × String)
  deriving DecidableEq, Repr

namespace Settings

/-- Put a setting over those that are there.  It takes the place of a setting of
its name; a single value also takes the place of all settings below its name. -/
def override (settings : List Setting) (setting : Setting) : List Setting :=
  let stays (other : Setting) : Bool :=
    if setting.value = .table then other.name ≠ setting.name
    else !setting.name.isPrefixOf other.name
  settings.filter stays ++ [setting]

def overrideAll (settings upper : List Setting) : List Setting := upper.foldl override settings

def text? (settings : List Setting) (name : List String) (expected : String) :
    Except SettingFault (Option String) :=
  match settings.find? fun setting => setting.name = name with
  | none => .ok none
  | some setting =>
    match setting.value with
    | .text value => .ok (some value)
    | value => .error ⟨value.display, expected, name, setting.source⟩

def keysName : String := "keys"

/-- Put a key in its place in the order of the aliases. -/
def insertKey (key : String × String) : List (String × String) → List (String × String)
  | [] => [key]
  | other :: others =>
    if key.1 < other.1 then key :: other :: others else other :: insertKey key others

def readKeys (settings : List Setting) : Except SettingFault (List (String × String)) :=
  let fault? := settings.findSome? fun setting =>
    if setting.name = [keysName] ∧ setting.value ≠ .table then
      some ⟨setting.value.display, "a map", [keysName], setting.source⟩
    else none
  match fault? with
  | some fault => .error fault
  | none =>
    let aliases := settings.filterMap fun setting =>
      match setting.name with
      | [table, name] => if table = keysName then some name else none
      | _ => none
    (aliases.foldl (fun keys name => insertKey (name, "") keys) []).mapM fun (name, _) => do
      let path ← text? settings [keysName, name] "path string"
      .ok (name, path.getD "")

/-- The settings of the environment over those of the file.  Those of each source
are put over one another first, so a value of the environment that a table there
has replaced takes nothing away from the file. -/
def combine (file environment : List Setting) : List Setting :=
  overrideAll (overrideAll [] file) (overrideAll [] environment)

def ofSettings (file environment : List Setting) : Except SettingFault Settings := do
  let settings := combine file environment
  let keys ← readKeys settings
  let outputDirectory ← text? settings ["output_dir"] "path string"
  let signerAlias ← text? settings ["rsc_alias"] "a string"
  .ok ⟨outputDirectory.getD ".", signerAlias, keys⟩

def ofFile (path : String) (parts : Parts) : List Setting :=
  parts.map fun (name, value) => ⟨name, value, .file path⟩

def ofVariables (assignments : List (String × String)) : List Setting :=
  assignments.flatMap fun (name, text) => Variable.settings name text

end Settings
end CommandLine
end CardAccess
