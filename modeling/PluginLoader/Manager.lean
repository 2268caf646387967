import PluginLoader.World

/-!
A plugin manager loads the archives of one directory into a context of its own and answers queries
from that context.
-/
namespace PluginLoader

structure LoaderOptions where
  archiveErrors : ArchivePolicy := .abort
  /-- Open every archive while loading. -/
  verifyArchives : Bool := false
  deriving DecidableEq, Repr

structure PluginManager where
  /-- The canonical path of the directory. -/
  directory : String
  options : LoaderOptions
  context : ScopeId
  deriving DecidableEq, Repr

namespace PluginManager

/-- Open each archive once. One that does not open is dropped, or is the failure of all. -/
def verify (files : FileSystem) (policy : ArchivePolicy) :
    List PluginSource → Except LoadError (List PluginSource)
  | [] => .ok []
  | source :: sources =>
    match source.archive files, policy with
    | .ok _, _ => (verify files policy sources).map (source :: ·)
    | .error _, .skip => verify files policy sources
    | .error e, .abort => .error e

/-- The sources a manager of a directory would have. -/
def loadSources (files : FileSystem) (path : String) (options : LoaderOptions) :
    Except LoadError (PluginDirectory × List PluginSource) := do
  let directory ← PluginDirectory.open? files path
  let sources ← directory.scan files
  let sources ←
    if options.verifyArchives then verify files options.archiveErrors sources else .ok sources
  return (directory, sources)

/-- Load a directory on top of a parent scope. `label` is the name of the manager's context. -/
def load (w : World) (label path : String) (options : LoaderOptions) (parent : ScopeId) :
    Except LoadError (PluginManager × World) := do
  let (directory, sources) ← loadSources w.files path options
  let (context, w) :=
    w.addContext parent (LoadingContext.make label sources options.archiveErrors)
  return ({ directory := directory.path, options, context }, w)

end PluginManager
end PluginLoader
