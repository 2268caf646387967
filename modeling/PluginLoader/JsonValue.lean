import PluginLoader.Text.Hex

/-!
JSON values and their printed form: two spaces of indentation a level, one item to a line, and only
quotes, backslashes and control characters escaped.
-/
namespace PluginLoader

inductive JsonValue where
  | null
  | bool (value : Bool)
  | number (text : String)
  | string (value : String)
  | array (items : List JsonValue)
  | object (fields : List (String × JsonValue))
  deriving Inhabited

namespace JsonValue

def escape (c : Char) : List Char :=
  if c = '"' then ['\\', '"']
  else if c = '\\' then ['\\', '\\']
  else if c = '\n' then ['\\', 'n']
  else if c = '\r' then ['\\', 'r']
  else if c = '\t' then ['\\', 't']
  else if c = '\x08' then ['\\', 'b']
  else if c = '\x0c' then ['\\', 'f']
  else if c < ' ' then '\\' :: 'u' :: Hex.lower 4 c.toNat
  else [c]

def quote (s : String) : String := String.ofList ('"' :: s.toList.flatMap escape ++ ['"'])

def indent (level : Nat) : String := String.ofList ('\n' :: List.replicate (2 * level) ' ')

/-- Lines between an opening and a closing bracket. -/
def bracket (left right : String) (level : Nat) (lines : List String) : String :=
  if lines.isEmpty then left ++ right
  else
    left ++ String.intercalate "," (lines.map (indent (level + 1) ++ ·)) ++ indent level ++ right

mutual

def printAt (level : Nat) : JsonValue → String
  | .null => "null"
  | .bool value => if value then "true" else "false"
  | .number text => text
  | .string value => quote value
  | .array items => bracket "[" "]" level (printItems (level + 1) items)
  | .object fields => bracket "\x7b" "\x7d" level (printFields (level + 1) fields)

def printItems (level : Nat) : List JsonValue → List String
  | [] => []
  | item :: rest => printAt level item :: printItems level rest

def printFields (level : Nat) : List (String × JsonValue) → List String
  | [] => []
  | (key, value) :: rest =>
    (quote key ++ ": " ++ printAt level value) :: printFields level rest

end

def print (value : JsonValue) : String := printAt 0 value

end JsonValue
end PluginLoader
