import PluginLoader.Fields
import PluginLoader.Options
import PluginLoader.Yaml.Document
import PluginLoader.Yaml.Tree
import PluginLoader.Yaml.View

/-!
What a user configures: where plugins lie, how they are loaded, and which types the host brings. As
YAML it has the sections `plugins`, `host` and `logging`; whatever is missing has its default.
-/
namespace PluginLoader

/-- A type of the host. -/
structure ConfiguredType where
  name : String
  superName : Option String
  deriving DecidableEq, Repr

structure Configuration where
  directory : String := "./plugins"
  options : LoaderOptions := {}
  /-- The host has the standard types. -/
  standardTypes : Bool := true
  types : List ConfiguredType := []
  level : String := "info"
  deriving DecidableEq, Repr

namespace Configuration

open Yaml

/-- The host: the configured types on top of the standard ones or of nothing. -/
def hostTypes (c : Configuration) : HostTypes :=
  c.types.foldl (fun host type => host.withType type.name type.superName)
    (if c.standardTypes then .standard else .empty)

/-! ### To YAML -/

def typeTree (type : ConfiguredType) : Tree :=
  .record [("name", .text type.name), ("extends", (type.superName.map Tree.text).getD .null)]

/-- All sections with all fields. -/
def sections (c : Configuration) : List (String × Tree) :=
  [("plugins", .record [("directory", .text c.directory),
      ("archive_errors", .text c.options.archiveErrors.name),
      ("verify_archives", .truth c.options.verifyArchives)]),
   ("host", .record [("standard_types", .truth c.standardTypes),
      ("types", .list (c.types.map typeTree))]),
   ("logging", .record [("level", .text c.level)])]

def toYaml (c : Configuration) : String := Tree.writeRecord c.sections

/-! ### From YAML -/

abbrev NodeFields := List (String × Node)

def typeOf (node : Node) : Reading ConfiguredType := do
  let fields ← node.fields
  let name ← Fields.read? fields "name" Node.text failure
  let superName ← Fields.read? fields "extends" Node.textOrNull (pure none)
  return { name, superName }

def typesOf (node : Node) : Reading (List ConfiguredType) := do (← node.items).mapM typeOf

def policyOf (node : Node) : Reading ArchivePolicy := do ArchivePolicy.ofName? (← node.choice)

/-- The fields of a section, none if it is missing. -/
def sectionOf (fields : NodeFields) (name : String) : Reading NodeFields :=
  Fields.read? fields name Node.fields (pure [])

def ofNode (root : Node) : Reading Configuration := do
  let fields ← root.fields
  let plugins ← sectionOf fields "plugins"
  let host ← sectionOf fields "host"
  let logging ← sectionOf fields "logging"
  let standard : Configuration := {}
  let directory ← Fields.read? plugins "directory" Node.text (pure standard.directory)
  let archiveErrors ← Fields.read? plugins "archive_errors" policyOf
    (pure standard.options.archiveErrors)
  let verifyArchives ← Fields.read? plugins "verify_archives" Node.truth
    (pure standard.options.verifyArchives)
  let standardTypes ← Fields.read? host "standard_types" Node.truth (pure standard.standardTypes)
  let types ← Fields.read? host "types" typesOf (pure standard.types)
  let level ← Fields.read? logging "level" Node.text (pure standard.level)
  return { directory, options := { archiveErrors, verifyArchives }, standardTypes, types, level }

def ofYaml? (text : String) : Option Configuration := (document? text).bind (Reading.of? ofNode)

end Configuration
end PluginLoader
