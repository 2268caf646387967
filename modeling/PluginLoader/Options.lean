import PluginLoader.Fields
import PluginLoader.JsonValue
import PluginLoader.Manager

/-!
Loader options written as JSON: an object in which unknown keys do not count and missing ones have
their defaults, or an array of the fields in order that may end early. A policy is its name, alone
or as the only key of an object that leads to null.
-/
namespace PluginLoader

namespace ArchivePolicy

def name : ArchivePolicy → String
  | .abort => "abort"
  | .skip => "skip"

def ofName? (name : String) : Option ArchivePolicy :=
  if name = "abort" then some .abort else if name = "skip" then some .skip else none

def ofJson? : JsonValue → Option ArchivePolicy
  | .string name => ofName? name
  | .object [(name, .null)] => ofName? name
  | _ => none

end ArchivePolicy

namespace LoaderOptions

def verifyOfJson? : JsonValue → Option Bool
  | .bool value => some value
  | _ => none

def ofJson? : JsonValue → Option LoaderOptions
  | .object fields => do
    let archiveErrors ← Fields.read? fields "archive_errors" ArchivePolicy.ofJson? (some .abort)
    let verifyArchives ← Fields.read? fields "verify_archives" verifyOfJson? (some false)
    return { archiveErrors, verifyArchives }
  | .array [] => some {}
  | .array [policy] => do return { archiveErrors := ← ArchivePolicy.ofJson? policy }
  | .array [policy, verify] => do
    return { archiveErrors := ← ArchivePolicy.ofJson? policy
             verifyArchives := ← verifyOfJson? verify }
  | _ => none

end LoaderOptions
end PluginLoader
