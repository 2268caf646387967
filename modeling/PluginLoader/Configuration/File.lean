import PluginLoader.Configuration
import PluginLoader.Text.Utf8

/-!
Configuration files. Reading follows links; the default file may be missing, a file that was named
may not. Saving makes the folders on the way.
-/
namespace PluginLoader

inductive ConfigurationFault where
  | unreadable (path : String)
  | unparsable
  | noFolder
  | unwritable
  deriving DecidableEq, Repr

def ConfigurationFault.message : ConfigurationFault → String
  | .unreadable path => s!"Failed to read config file {path}"
  | .unparsable => "Failed to parse config file"
  | .noFolder => "Failed to create config directory"
  | .unwritable => "Failed to write config file"

namespace Configuration

/-- The text of a file; none if there is no such file or it is not UTF-8. -/
def fileText? (files : FileSystem) (path : String) : Option String := do
  let content ← (files.read path).toOption
  return String.ofList (← Utf8.decode? content.toList)

def load (files : FileSystem) (path : String) : Except ConfigurationFault Configuration :=
  match fileText? files path with
  | none => .error (.unreadable path)
  | some text =>
    match ofYaml? text with
    | some c => .ok c
    | none => .error .unparsable

/-- Where a user's configuration lies. -/
def defaultPath (home : String) : String := Path.join (Path.join home ".plugjar") "config.yaml"

def loadDefault (files : FileSystem) (home : String) : Except ConfigurationFault Configuration :=
  if files.isThere (defaultPath home) then load files (defaultPath home) else .ok {}

def save (c : Configuration) (files : FileSystem) (path : String) :
    Except ConfigurationFault FileSystem := do
  let files ← match Path.directory? path with
    | some directory => (files.makeFolders directory).mapError fun _ => .noFolder
    | none => pure files
  (files.write path c.toYaml.toUTF8).mapError fun _ => .unwritable

end Configuration
end PluginLoader
