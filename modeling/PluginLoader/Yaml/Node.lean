import PluginLoader.Yaml.Token

/-!
Nodes of a document. An anchor gives the node behind it a number, an alias stands for a number.
-/
namespace PluginLoader.Yaml

inductive Node where
  | scalar (text : String) (style : ScalarStyle) (tag : Option Octets)
  | sequence (items : List Node) (tag : Option Octets)
  | mapping (entries : List (Node × Node)) (tag : Option Octets)
  | anchored (number : Nat) (node : Node)
  | alias (number : Nat)
  deriving Inhabited

namespace Node

/-- What an empty place stands for. -/
def absent : Node := .scalar "" .plain none

/-- The node without the anchors in front of it. -/
def bare : Node → Node
  | .anchored _ node => node.bare
  | node => node

mutual

/-- The anchored nodes inside a node, in the order in which they begin. -/
def anchors : Node → List (Nat × Node)
  | .scalar _ _ _ => []
  | .sequence items _ => itemAnchors items
  | .mapping entries _ => entryAnchors entries
  | .anchored number node => (number, node) :: anchors node
  | .alias _ => []

def itemAnchors : List Node → List (Nat × Node)
  | [] => []
  | node :: rest => anchors node ++ itemAnchors rest

def entryAnchors : List (Node × Node) → List (Nat × Node)
  | [] => []
  | (key, value) :: rest => anchors key ++ anchors value ++ entryAnchors rest

end

/-- What the numbers stand for. Of several nodes with one number, the one that begins last is first. -/
def targets (root : Node) : List (Nat × Node) :=
  root.anchors.reverse.map fun (number, node) => (number, node.bare)

mutual

/-- The events that a node is told in: one for a scalar or an alias, and both ends of the others. -/
def events : Node → Nat
  | .scalar _ _ _ => 1
  | .sequence items _ => itemEvents items + 2
  | .mapping entries _ => entryEvents entries + 2
  | .anchored _ node => events node
  | .alias _ => 1

def itemEvents : List Node → Nat
  | [] => 0
  | node :: rest => events node + itemEvents rest

def entryEvents : List (Node × Node) → Nat
  | [] => 0
  | (key, value) :: rest => events key + events value + entryEvents rest

end

end Node
end PluginLoader.Yaml
