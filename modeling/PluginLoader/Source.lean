import PluginLoader.Archive

/-!
Where plugins come from: single archives, recognised by their file name, and directories of them.
A directory is not searched below its direct children.
-/
namespace PluginLoader

/-- The location of a plugin archive. -/
structure PluginSource where
  location : String
  deriving DecidableEq, Repr

def archiveSuffix : List Char := ['.', 'j', 'a', 'r']

/-- The file name of a path ends in the archive suffix. -/
def isArchivePath (path : String) : Bool :=
  match Path.fileName? path with
  | some name => archiveSuffix <:+ name.toList
  | none => false

namespace PluginSource

def make (location : String) : Except LoadError PluginSource :=
  if isArchivePath location then .ok ⟨location⟩ else .error (.notAnArchive location)

/-- Open the archive; each call opens it again. -/
def archive (source : PluginSource) (files : FileSystem) : Except LoadError Archive :=
  Archive.open? files source.location

end PluginSource

/-- A directory that was there when it was opened, under its canonical path. -/
structure PluginDirectory where
  path : String
  deriving DecidableEq, Repr

namespace PluginDirectory

def open? (files : FileSystem) (path : String) : Except LoadError PluginDirectory :=
  if files.isFolder path then
    match files.canonical path with
    | .ok canonical => .ok ⟨canonical⟩
    | .error _ => .error (.directoryNotFound path)
  else .error (.directoryNotFound path)

/-- The archives directly inside, in listing order. -/
def scan (directory : PluginDirectory) (files : FileSystem) :
    Except LoadError (List PluginSource) :=
  match files.list directory.path with
  | .error fault => .error (.unlistable directory.path fault)
  | .ok names =>
    .ok (((names.map (Path.join directory.path)).filter isArchivePath).map PluginSource.mk)

end PluginDirectory
end PluginLoader
