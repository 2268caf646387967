import PluginLoader.Yaml.Written

/-!
Values and their written form. Every field of a record stands on a line of its own, inner records
are indented, the items of a list are not. Nothing is ever folded.
-/
namespace PluginLoader.Yaml

inductive Tree where
  | null
  | truth (value : Bool)
  | text (value : String)
  | list (items : List Tree)
  | record (fields : List (String × Tree))
  deriving Inhabited

/-- What a value is written behind: the key of a field, or the dash of an item. -/
inductive Place where
  | key
  | dash
  deriving DecidableEq

namespace Place

/-- The column of a list's dashes behind a place in a block at `column`. -/
def dashColumn (column : Nat) : Place → Nat
  | .key => column
  | .dash => column + indentation

/-- What leads to an inner block: a new line behind a key, a blank behind a dash. -/
def lead (column : Nat) : Place → List Char
  | .key => '\n' :: pad column
  | .dash => [' ']

end Place

namespace Tree

mutual

/-- A value behind a place in a block at a column. -/
def write (place : Place) (column : Nat) : Tree → List Char
  | .null => " null\n".toList
  | .truth value => if value then " true\n".toList else " false\n".toList
  | .text value => ' ' :: writtenLine (column + indentation) value.toList
  | .list items =>
    if items.isEmpty then " []\n".toList
    else writeItems (place.lead (place.dashColumn column)) (place.dashColumn column) items
  | .record fields =>
    if fields.isEmpty then " \x7b\x7d\n".toList
    else writeFields (place.lead (column + indentation)) (column + indentation) fields

/-- Fields, the first behind `lead`. -/
def writeFields (lead : List Char) (column : Nat) : List (String × Tree) → List Char
  | [] => []
  | (key, value) :: rest =>
    lead ++ writtenKey key.toList ++ ':' :: write .key column value ++
      writeFields (pad column) column rest

/-- Items, the first behind `lead`. -/
def writeItems (lead : List Char) (column : Nat) : List Tree → List Char
  | [] => []
  | item :: rest =>
    lead ++ '-' :: write .dash column item ++ writeItems (pad column) column rest

end

/-- A record as a whole text. -/
def writeRecord (fields : List (String × Tree)) : String := String.ofList (writeFields [] 0 fields)

end Tree
end PluginLoader.Yaml
