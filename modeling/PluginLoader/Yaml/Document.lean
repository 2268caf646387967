import PluginLoader.Yaml.Layout
import PluginLoader.Yaml.Node

/-!
From tokens to the one document of a text. A missing key, value or item is an empty plain scalar,
and so is a text without any document.
-/
namespace PluginLoader.Yaml

/-- What a document's handles stand for. -/
abbrev TagLeads := List (List Char × Octets)

/-- Handles that need no directive. -/
def standardLeads : TagLeads := [(['!'], octets "!"), (['!', '!'], octets "tag:yaml.org,2002:")]

/-- Tokens not yet used, and the numbers of the anchors so far. -/
structure Feed where
  tokens : List Token
  anchors : List (List Char × Nat) := []

abbrev Composer (α : Type) := StateT Feed Option α

namespace Composer

def head? : Composer (Option Token) := do return (← get).tokens.head?

def skip : Composer Unit := modify fun feed => { feed with tokens := feed.tokens.tail }

/-- Use a token if it comes next. -/
def accept (token : Token) : Composer Bool := do
  if (← head?) = some token then
    skip
    return true
  else return false

def require (token : Token) : Composer Unit := do
  if !(← accept token) then failure

/-- One of the tokens comes next. -/
def isNext (tokens : List Token) : Composer Bool := do
  match ← head? with
  | some token => return tokens.contains token
  | none => return false

/-- Number an anchor. A name that is used again gets a new number; the number is how many names
there have been, so that it may be in use for another name. -/
def anchor (name : List Char) : Composer Nat := do
  let number := (← get).anchors.length
  modify fun feed =>
    { feed with anchors := (name, number) :: feed.anchors.filter (·.1 ≠ name) }
  return number

def anchor? : Composer (Option Nat) := do
  match ← head? with
  | some (.anchor name) =>
    skip
    return some (← anchor name)
  | _ => return none

/-- A tag with its handle replaced by what it stands for. -/
def tag? (leads : TagLeads) : Composer (Option Octets) := do
  match ← head? with
  | some (.tag name) =>
    skip
    match name.handle with
    | none => return some name.suffix
    | some handle =>
      match leads.lookup handle with
      | some lead => return some (lead ++ name.suffix)
      | none => failure
  | _ => return none

/-- The anchor and the tag in front of a node, in either order. -/
def properties (leads : TagLeads) : Composer (Option Nat × Option Octets) := do
  match ← anchor? with
  | some number => return (some number, ← tag? leads)
  | none =>
    let tag ← tag? leads
    return (← (if tag.isSome then anchor? else pure none), tag)

def withAnchor (number : Option Nat) (node : Node) : Node :=
  match number with
  | some number => .anchored number node
  | none => node

mutual

/-- A node. `block` allows blocks; `dashes` allows a sequence that is not indented further. -/
def node (leads : TagLeads) (block dashes : Bool) : Nat → Composer Node
  | 0 => failure
  | fuel + 1 => do
    match ← head? with
    | some (.alias name) =>
      skip
      match (← get).anchors.lookup name with
      | some number => return .alias number
      | none => failure
    | _ =>
      let (number, tag) ← properties leads
      let content ← content leads block dashes (number.isSome || tag.isSome) tag fuel
      return withAnchor number content

/-- A node behind its properties. -/
def content (leads : TagLeads) (block dashes hasProperties : Bool) (tag : Option Octets) :
    Nat → Composer Node
  | 0 => failure
  | fuel + 1 => do
    match ← head?, block, dashes with
    | some .blockEntry, _, true => return .sequence (← dashItems leads fuel) tag
    | some (.scalar text style), _, _ =>
      skip
      return .scalar (String.ofList text) style tag
    | some .flowSequenceStart, _, _ =>
      skip
      return .sequence (← flowItems leads true fuel) tag
    | some .flowMappingStart, _, _ =>
      skip
      return .mapping (← flowEntries leads true fuel) tag
    | some .blockSequenceStart, true, _ =>
      skip
      return .sequence (← blockItems leads fuel) tag
    | some .blockMappingStart, true, _ =>
      skip
      return .mapping (← blockEntries leads fuel) tag
    | _, _, _ => if hasProperties then return .scalar "" .plain tag else failure

/-- Items of a block sequence up to the end of its block. -/
def blockItems (leads : TagLeads) : Nat → Composer (List Node)
  | 0 => failure
  | fuel + 1 => do
    if ← accept .blockEnd then return []
    require .blockEntry
    let item ←
      if ← isNext [.blockEntry, .blockEnd] then pure .absent else node leads true false fuel
    return item :: (← blockItems leads fuel)

/-- Items of a sequence that stands in its mapping's own block. -/
def dashItems (leads : TagLeads) : Nat → Composer (List Node)
  | 0 => failure
  | fuel + 1 => do
    if !(← accept .blockEntry) then return []
    let item ←
      if ← isNext [.blockEntry, .key, .value, .blockEnd] then pure .absent
      else node leads true false fuel
    return item :: (← dashItems leads fuel)

/-- Entries of a block mapping up to the end of its block. -/
def blockEntries (leads : TagLeads) : Nat → Composer (List (Node × Node))
  | 0 => failure
  | fuel + 1 => do
    if ← accept .blockEnd then return []
    require .key
    let key ← blockPart leads fuel
    let value ← if ← accept .value then blockPart leads fuel else pure .absent
    return (key, value) :: (← blockEntries leads fuel)

/-- A key or a value of a block mapping. -/
def blockPart (leads : TagLeads) : Nat → Composer Node
  | 0 => failure
  | fuel + 1 => do
    if ← isNext [.key, .value, .blockEnd] then return .absent
    node leads true true fuel

/-- Items of a sequence in brackets up to the closing one; a key begins a mapping of one entry. -/
def flowItems (leads : TagLeads) (first : Bool) : Nat → Composer (List Node)
  | 0 => failure
  | fuel + 1 => do
    if ← accept .flowSequenceEnd then return []
    if !first then require .flowEntry
    if ← accept .flowSequenceEnd then return []
    let item ←
      if ← accept .key then flowPair leads fuel else node leads false false fuel
    return item :: (← flowItems leads false fuel)

/-- The one entry of a mapping inside a bracketed sequence. A key that is missing takes the token
in its place with it. -/
def flowPair (leads : TagLeads) : Nat → Composer Node
  | 0 => failure
  | fuel + 1 => do
    let key ←
      if ← isNext [.value, .flowEntry, .flowSequenceEnd] then
        skip
        pure .absent
      else node leads false false fuel
    let value ←
      if ← accept .value then
        if ← isNext [.flowEntry, .flowSequenceEnd] then pure .absent
        else node leads false false fuel
      else pure .absent
    return .mapping [(key, value)] none

/-- Entries of a mapping in braces up to the closing one. -/
def flowEntries (leads : TagLeads) (first : Bool) : Nat → Composer (List (Node × Node))
  | 0 => failure
  | fuel + 1 => do
    if ← accept .flowMappingEnd then return []
    if !first then require .flowEntry
    if ← accept .flowMappingEnd then return []
    let entry ←
      if ← accept .key then
        let key ← flowPart leads [.value, .flowEntry, .flowMappingEnd] fuel
        let value ←
          if ← accept .value then flowPart leads [.flowEntry, .flowMappingEnd] fuel
          else pure .absent
        pure (key, value)
      else pure (← node leads false false fuel, .absent)
    return entry :: (← flowEntries leads false fuel)

/-- A node in brackets, or nothing in front of one of the tokens `ends`. -/
def flowPart (leads : TagLeads) (ends : List Token) : Nat → Composer Node
  | 0 => failure
  | fuel + 1 => do
    if ← isNext ends then return .absent
    node leads false false fuel

end

/-- Directives in front of a document: one version at most, and each handle once. -/
def directives : Bool → TagLeads → List Token → Option (TagLeads × List Token)
  | versioned, leads, .directive (.version major minor) :: rest =>
    if versioned || major ≠ 1 || (minor ≠ 1 && minor ≠ 2) then none else directives true leads rest
  | versioned, leads, .directive (.tagLead handle lead) :: rest =>
    if (leads.lookup handle).isSome then none
    else directives versioned (leads ++ [(handle, lead)]) rest
  | _, leads, rest => some (leads ++ standardLeads, rest)

/-- Tokens that leave a document between two marks empty. -/
def endsDocument : List Token → Bool
  | [] => true
  | .directive _ :: _ => true
  | token :: _ => token = .documentStart || token = .documentEnd

/-- The document that a list of tokens begins with, and the tokens behind it. Reading on from one
token to the next takes at most four steps, which bounds the fuel. -/
def document? (tokens : List Token) : Option (Node × List Token) :=
  let fuel := 4 * tokens.length + 4
  let run (leads : TagLeads) (tokens : List Token) : Option (Node × List Token) :=
    (node leads true false fuel { tokens }).map fun (root, feed) => (root, feed.tokens)
  match tokens with
  | [] => some (.absent, [])
  | .directive _ :: _ | .documentStart :: _ => do
    match ← directives false [] tokens with
    | (leads, .documentStart :: rest) =>
      if endsDocument rest then return (.absent, rest) else run leads rest
    | _ => none
  | _ => run standardLeads tokens

end Composer

/-- The root of a text's only document. -/
def document? (text : String) : Option Node := do
  let (root, rest) ← Composer.document? (← tokens? text)
  if rest.dropWhile (· = .documentEnd) = [] then return root else none

end PluginLoader.Yaml
