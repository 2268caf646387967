import PluginLoader.ClassHeader.Cursor
import PluginLoader.Zip.Fault

/-!
What can go wrong while plugins are found and types are resolved. A missing type is the only error a
caller may continue after; a query that meets any error while it goes through listed types reports
the listing as inconsistent.
-/
namespace PluginLoader

inductive LoadError where
  | directoryNotFound (path : String)
  | archiveRead (location : String) (fault : Zip.Fault)
  | typeNotFound (name : String)
  | notAnArchive (location : String)
  | unlistable (directory : String) (fault : FileFault)
  | contextClosed (context : String)
  | handleClosed (name : String)
  | malformed (entry location : String) (fault : HeaderFault)
  | misnamed (entry location declared expected : String)
  | inconsistent (name source : String) (cause : LoadError)
  deriving DecidableEq, Repr

inductive ErrorKind where
  | directoryNotFound
  | archiveRead
  | typeNotFound
  | illegalState
  deriving DecidableEq, Repr

namespace LoadError

def kind : LoadError → ErrorKind
  | .directoryNotFound _ => .directoryNotFound
  | .archiveRead _ _ => .archiveRead
  | .typeNotFound _ => .typeNotFound
  | _ => .illegalState

def isRecoverable (e : LoadError) : Bool := e.kind == .typeNotFound

def message : LoadError → String
  | .directoryNotFound path => s!"Path '{path}' does not exist or is no directory"
  | .archiveRead location fault => s!"Failed to read archive '{location}': {fault.message}"
  | .typeNotFound name => s!"Type not found: {name}"
  | .notAnArchive location => s!"Illegal state: '{location}' is not a .jar archive"
  | .unlistable directory fault =>
    s!"Illegal state: Failed to list plugin directory '{directory}': {fault.message}"
  | .contextClosed context => s!"Illegal state: Loading context {context} is closed"
  | .handleClosed name =>
    s!"Illegal state: Handle for '{name}' belongs to a closed loading context"
  | .malformed entry location fault =>
    s!"Illegal state: Malformed type definition {entry} in '{location}': {fault.message}"
  | .misnamed entry location declared expected =>
    s!"Illegal state: Entry {entry} in '{location}' declares '{declared}' instead of '{expected}'"
  | .inconsistent name source cause =>
    s!"Illegal state: Failed to resolve '{name}' listed in {source}: {cause.message}"

/-- The messages of what is under an error. Only an archive that cannot be read has anything. -/
def causes : LoadError → List String
  | .archiveRead _ fault => fault.message :: fault.cause?.toList
  | _ => []

end LoadError
end PluginLoader
