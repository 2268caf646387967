import PluginLoader.Yaml.Scalar.Block
import PluginLoader.Yaml.Scalar.Plain
import PluginLoader.Yaml.Token

/-!
From text to tokens. Indentation opens and closes blocks. Whether a node is a key shows only at the
colon behind it, so the place where a key may have begun is remembered, one for each level of
brackets, and the tokens that announce the key are put there afterwards.
-/
namespace PluginLoader.Yaml

/-- A place where a key may have begun. -/
structure KeyPlace where
  /-- The text at this place can be nothing but a key. -/
  required : Bool
  /-- How many tokens are in front of it. -/
  position : Nat
  line : Nat
  column : Nat
  /-- Octets in front of it on its line. -/
  offset : Nat

/-- What has been read of a text. -/
structure Layout where
  rest : Input
  tokens : Array Token := #[]
  /-- The least column of content inside the current block; zero outside of all blocks. -/
  margin : Nat := 0
  /-- The margins of the blocks around it. -/
  margins : List Nat := []
  key : Option KeyPlace := none
  /-- The places of the brackets around the current ones. -/
  keys : List (Option KeyPlace) := []
  /-- A key may begin here. -/
  keyAllowed : Bool := true

/-- How many octets behind the place where it began the colon of a key may be. -/
def keyLimit : Nat := 1024

/-- Text in front of the next token: gaps, comments, and a byte order mark at the start of a line.
Outside of brackets a key may begin on a new line, and no tab counts as blank where one may. -/
def skipGaps (flow : Bool) : Bool → Bool → Input → Bool × Input
  | keyAllowed, _, [] => (keyAllowed, [])
  | keyAllowed, comment, g :: rest =>
    if isBreak g.char then skipGaps flow (keyAllowed || !flow) false rest
    else if comment || g.char = '#' then skipGaps flow keyAllowed true rest
    else if g.char = ' ' || (g.char = '\t' && (flow || !keyAllowed)) ||
        (g.char = byteOrderMark && g.column = 0) then skipGaps flow keyAllowed false rest
    else (keyAllowed, g :: rest)

/-- A place that a key at `g` could still belong to; fails if a required key is too far. -/
def KeyPlace.still? (g : Glyph) : Option KeyPlace → Option (Option KeyPlace)
  | none => some none
  | some place =>
    if place.line < g.line || place.offset + keyLimit < g.offset then
      if place.required then none else some none
    else some (some place)

/-- The margins left of `margin` and those around it when the blocks deeper than `limit` end, and
how many those are. -/
def closeMargins (limit : Nat) : Nat → List Nat → Nat × Nat × List Nat
  | margin, [] => (0, margin, [])
  | margin, outer :: margins =>
    if margin > limit then
      let (closed, left) := closeMargins limit outer margins
      (closed + 1, left)
    else (0, margin, outer :: margins)

namespace Layout

def inFlow (layout : Layout) : Bool := !layout.keys.isEmpty

def push (layout : Layout) (token : Token) (rest : Input) : Layout :=
  { layout with tokens := layout.tokens.push token, rest }

/-- Put a token behind the first `position` ones. -/
def insert (layout : Layout) (position : Nat) (token : Token) : Layout :=
  { layout with tokens := layout.tokens.insertIdxIfInBounds position token }

/-- Outside of brackets, end the blocks whose margin is more than `limit`. -/
def closeBlocks (layout : Layout) (limit : Nat) : Layout :=
  if layout.inFlow then layout
  else
    let (closed, margin, margins) := closeMargins limit layout.margin layout.margins
    let ends := Array.replicate closed Token.blockEnd
    { layout with margin, margins, tokens := layout.tokens ++ ends }

/-- Outside of brackets, begin a block at a column that no block has reached. -/
def openBlock (layout : Layout) (column position : Nat) (token : Token) : Layout :=
  if layout.inFlow || column < layout.margin then layout
  else
    { layout.insert position token with
      margin := column + 1, margins := layout.margin :: layout.margins }

/-- Give up the place where a key may have begun, unless a key is required there. -/
def dropKey? (layout : Layout) : Option Layout :=
  match layout.key with
  | some place => if place.required then none else some { layout with key := none }
  | none => some layout

/-- Remember that a key may begin at `g`. -/
def noteKey? (layout : Layout) (g : Glyph) : Option Layout :=
  if layout.keyAllowed then do
    let layout ← layout.dropKey?
    let required := !layout.inFlow && layout.margin = g.column + 1
    return { layout with key := some ⟨required, layout.tokens.size, g.line, g.column, g.offset⟩ }
  else some layout

/-- Go to the next token and leave behind what ends in front of it. -/
def advance? (layout : Layout) : Option Layout :=
  let (keyAllowed, rest) := skipGaps layout.inFlow layout.keyAllowed false layout.rest
  match rest with
  | [] => some { layout with rest, keyAllowed }
  | g :: _ => do
    let key ← KeyPlace.still? g layout.key
    let keys ← layout.keys.mapM (KeyPlace.still? g)
    return { layout with rest, keyAllowed, key, keys }.closeBlocks (g.column + 1)

/-- A token that no block and no key goes across. -/
def boundary? (layout : Layout) (token : Token) (rest : Input) : Option Layout := do
  let layout ← (layout.closeBlocks 0).dropKey?
  return { layout.push token rest with keyAllowed := false }

def openFlow? (layout : Layout) (g : Glyph) (rest : Input) (token : Token) : Option Layout := do
  let layout ← layout.noteKey? g
  return { layout.push token rest with
    key := none, keys := layout.key :: layout.keys, keyAllowed := true }

def closeFlow? (layout : Layout) (rest : Input) (token : Token) : Option Layout := do
  let layout ← layout.dropKey?
  let layout := { layout.push token rest with keyAllowed := false }
  match layout.keys with
  | key :: keys => return { layout with key, keys }
  | [] => return layout

def flowEntry? (layout : Layout) (rest : Input) : Option Layout := do
  let layout ← layout.dropKey?
  return { layout.push .flowEntry rest with keyAllowed := true }

/-- A dash or question mark in front of a gap. Outside of brackets it belongs to a block. -/
def blockMark? (layout : Layout) (g : Glyph) (rest : Input) (block token : Token)
    (keyAllowed : Bool) : Option Layout := do
  if !layout.inFlow && !layout.keyAllowed then none
  let layout ← (layout.openBlock g.column layout.tokens.size block).dropKey?
  return { layout.push token rest with keyAllowed }

/-- A colon. It makes a key of what was remembered, or else stands where a key may begin. -/
def value? (layout : Layout) (g : Glyph) (rest : Input) : Option Layout :=
  match layout.key with
  | some place =>
    let layout := (layout.insert place.position .key).openBlock place.column place.position
      .blockMappingStart
    some { layout.push .value rest with key := none, keyAllowed := false }
  | none => do
    if !layout.inFlow && !layout.keyAllowed then none
    let layout := layout.openBlock g.column layout.tokens.size .blockMappingStart
    return { layout.push .value rest with keyAllowed := !layout.inFlow }

/-- A token that a key may begin with. -/
def keyStart? (layout : Layout) (g : Glyph) (read : Option (Token × Input)) : Option Layout := do
  let layout ← layout.noteKey? g
  let (token, rest) ← read
  return { layout.push token rest with keyAllowed := false }

/-- The name of an anchor or an alias; a gap or an indicator has to follow it. -/
def anchorName? (input : Input) : Option (List Char × Input) :=
  let (name, rest) := input.span isWord
  if !name.isEmpty && (rest.atGap || rest.starts ("?:,]\x7d%@\x60".toList.contains ·)) then
    some (name, rest)
  else none

def plain? (layout : Layout) (g : Glyph) : Option Layout := do
  let layout ← layout.noteKey? g
  let scalar ← plainScalar? layout.inFlow layout.margin layout.rest
  return { layout.push (.scalar scalar.text .plain) scalar.rest with keyAllowed := scalar.endsLine }

def block? (layout : Layout) (rest : Input) (style : ScalarStyle) : Option Layout := do
  let layout ← layout.dropKey?
  let (text, rest) ← blockScalar? (style == .literal) layout.margin rest
  return { layout.push (.scalar text style) rest with keyAllowed := true }

def quoted? (layout : Layout) (g : Glyph) (style : ScalarStyle)
    (read : Option (List Char × Input)) : Option Layout :=
  layout.keyStart? g (read.map fun (text, rest) => (.scalar text style, rest))

/-- A character that begins no plain scalar. -/
def isIndicator (c : Char) : Bool := "-?:,[]\x7b\x7d#&*!|>\x27\x22%@\x60".toList.contains c

/-- Read the token that the rest of the text begins with. -/
def token? (layout : Layout) (g : Glyph) (rest : Input) : Option Layout :=
  let flow := layout.inFlow
  let afterMark := flow || rest.atGap
  if g.column = 0 && g.char = '%' then
    (directive? rest).bind fun (directive, rest) => layout.boundary? (.directive directive) rest
  else if Input.marksDocument '-' (g :: rest) then layout.boundary? .documentStart (rest.drop 2)
  else if Input.marksDocument '.' (g :: rest) then layout.boundary? .documentEnd (rest.drop 2)
  else
    match g.char with
    | '[' => layout.openFlow? g rest .flowSequenceStart
    | '\x7b' => layout.openFlow? g rest .flowMappingStart
    | ']' => layout.closeFlow? rest .flowSequenceEnd
    | '\x7d' => layout.closeFlow? rest .flowMappingEnd
    | ',' => layout.flowEntry? rest
    | '*' => layout.keyStart? g ((anchorName? rest).map fun (name, rest) => (.alias name, rest))
    | '&' => layout.keyStart? g ((anchorName? rest).map fun (name, rest) => (.anchor name, rest))
    | '!' =>
      layout.keyStart? g ((tagName? flow layout.rest).map fun (tag, rest) => (.tag tag, rest))
    | '\x27' => layout.quoted? g .singleQuoted (singleQuoted? {} [] rest)
    | '\x22' => layout.quoted? g .doubleQuoted (doubleQuoted? .outside {} [] rest)
    | '|' => if flow then none else layout.block? rest .literal
    | '>' => if flow then none else layout.block? rest .folded
    | '-' =>
      if rest.atGap then layout.blockMark? g rest .blockSequenceStart .blockEntry true
      else layout.plain? g
    | '?' =>
      if afterMark then layout.blockMark? g rest .blockMappingStart .key (!flow)
      else layout.plain? g
    | ':' => if afterMark then layout.value? g rest else layout.plain? g
    | c => if isGap c || isIndicator c then none else layout.plain? g

/-- Read on to the end of the text, `fuel` tokens at most. -/
def run? : Nat → Layout → Option Layout
  | 0, _ => none
  | fuel + 1, layout => do
    let layout ← layout.advance?
    match layout.rest with
    | [] => (layout.closeBlocks 0).dropKey?
    | g :: rest => run? fuel (← layout.token? g rest)

end Layout

/-- The tokens of a text. Every token takes a character, so the fuel is enough. -/
def tokens? (text : String) : Option (List Token) := do
  let input ← Input.ofText? text
  let layout ← Layout.run? (input.length + 1) { rest := input }
  return layout.tokens.toList

end PluginLoader.Yaml
