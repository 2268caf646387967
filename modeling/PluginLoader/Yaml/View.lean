import PluginLoader.Text.Utf8
import PluginLoader.Yaml.Node
import PluginLoader.Yaml.NumberLike

/-!
What a node stands for, according to what is wanted of it. Any scalar is a text, whatever it looks
like, and an empty plain one is a list or a record of nothing. Tags count for truth values, for
null and for choices only. Whoever reads may follow aliases so many times as the whole document
allows, or a short document could stand for one that never ends.
-/
namespace PluginLoader.Yaml

/-- Reading knows what the numbers of aliases stand for, and how often one may still be followed. -/
abbrev Reading := ReaderT (List (Nat × Node)) (StateT Nat Option)

/-- Read a whole document. Aliases are followed 100 times for each of its events, no more. -/
def Reading.of? (reading : Node → Reading α) (root : Node) : Option α :=
  (reading root root.targets).run' (100 * root.events)

def nullTag : Octets := octets "tag:yaml.org,2002:null"
def truthTag : Octets := octets "tag:yaml.org,2002:bool"

namespace Node

/-- The node itself, or the one that an alias stands for, which costs one step. -/
def resolve (node : Node) : Reading Node := do
  let .alias number := node.bare | return node.bare
  let steps + 1 ← get | failure
  set steps
  (← read).lookup number

def text (node : Node) : Reading String := do
  let .scalar text _ _ ← node.resolve | failure
  return text

def truthWord? (text : String) : Option Bool :=
  if trueWords.contains text then some true
  else if falseWords.contains text then some false
  else none

/-- Quoted truth values are texts; one as indented lines needs its tag. -/
def truth (node : Node) : Reading Bool := do
  match ← node.resolve with
  | .scalar text .plain _ => truthWord? text
  | .scalar text .literal tag => if tag = some truthTag then truthWord? text else failure
  | _ => failure

def isNull (text : String) : Bool := nullWords.contains text

/-- A text or null. Null is plain, and without a tag or with the one for null. -/
def textOrNull (node : Node) : Reading (Option String) := do
  match ← node.resolve with
  | .scalar text .plain none => return if text.isEmpty || isNull text then none else some text
  | .scalar text .plain (some tag) =>
    if tag ≠ nullTag then return some text else if isNull text then return none else failure
  | .scalar text _ _ => return some text
  | _ => failure

/-- The name that a local tag is, if it is text. -/
def localTag? : Option Octets → Option String
  | some (0x21 :: name) => (Utf8.decode? (if name.isEmpty then [0x21] else name)).map String.ofList
  | _ => none

/-- A name, either as a scalar's text or as the local tag in front of nothing. -/
def choice (node : Node) : Reading String := do
  let .scalar text style tag ← node.resolve | failure
  match localTag? tag with
  | some name => if style = .plain && (text.isEmpty || isNull text) then return name else failure
  | none => return text

def items (node : Node) : Reading (List Node) := do
  match ← node.resolve with
  | .sequence items _ => return items
  | .scalar text .plain _ => if text.isEmpty then return [] else failure
  | _ => failure

/-- The entries of a mapping whose keys are scalars. -/
def fields (node : Node) : Reading (List (String × Node)) := do
  match ← node.resolve with
  | .mapping entries _ => entries.mapM fun (key, value) => return (← key.text, value)
  | .scalar text .plain _ => if text.isEmpty then return [] else failure
  | _ => failure

end Node
end PluginLoader.Yaml
