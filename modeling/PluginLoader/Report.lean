import PluginLoader.JsonValue
import PluginLoader.TypeHandle

/-!
Answers and the two ways to print them. As text every result is a line; as JSON all of them are one
array, whose items hold everything a line is made of.
-/
namespace PluginLoader

/-- What is told of a type. -/
structure TypeSummary where
  name : String
  superName : Option String
  interfaces : List String
  isInterface : Bool
  /-- None for a type of the host. -/
  archive : Option String
  deriving DecidableEq, Repr

namespace TypeSummary

def ofHandle (handle : TypeHandle) : TypeSummary :=
  { name := handle.name
    superName := handle.superName
    interfaces := handle.descriptor.interfaces
    isInterface := handle.isInterface
    archive := handle.archive? }

def line (t : TypeSummary) : String :=
  t.name ++ "\textends " ++ t.superName.getD "-" ++ "\t[" ++ t.archive.getD "host" ++ "]"

def textOrNull (text : Option String) : JsonValue := (text.map JsonValue.string).getD .null

def json (t : TypeSummary) : JsonValue :=
  .object [("name", .string t.name), ("extends", textOrNull t.superName),
    ("interfaces", .array (t.interfaces.map .string)), ("interface", .bool t.isInterface),
    ("archive", textOrNull t.archive)]

end TypeSummary

inductive Report where
  | names (names : List String)
  | types (types : List TypeSummary)
  deriving DecidableEq, Repr

namespace Report

/-- The results as lines. -/
def lines : Report → List String
  | .names texts => texts
  | .types summaries => summaries.map TypeSummary.line

def json : Report → JsonValue
  | .names texts => .array (texts.map .string)
  | .types summaries => .array (summaries.map TypeSummary.json)

def print (asJson : Bool) (report : Report) : String :=
  if asJson then report.json.print ++ "\n" else String.join (report.lines.map (· ++ "\n"))

end Report
end PluginLoader
