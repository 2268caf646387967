import PluginLoader.Yaml.Glyph

/-!
Block scalars: lines below a `|` or `>`, all indented to one column. A `|` keeps the line breaks, a
`>` folds the single ones between lines that do not begin with a blank. What happens to the breaks
at the end is the header's choice.
-/
namespace PluginLoader.Yaml

inductive Chomp where
  /-- No break at the end. -/
  | strip
  /-- At most one. -/
  | clip
  /-- All of them. -/
  | keep
  deriving DecidableEq

structure BlockHeader where
  chomp : Chomp
  /-- Columns more than the surrounding block has, if given. -/
  depth : Option Nat

namespace BlockHeader

def chomp? (c : Char) : Option Chomp :=
  if c = '+' then some .keep else if c = '-' then some .strip else none

def readChomp (input : Input) : Option Chomp × Input :=
  match input with
  | g :: rest =>
    match chomp? g.char with
    | some chomp => (some chomp, rest)
    | none => (none, input)
  | [] => (none, [])

/-- A digit from 1 to 9, if there is a digit. -/
def readDepth? (input : Input) : Option (Option Nat × Input) :=
  match input with
  | g :: rest =>
    if g.char = '0' then none
    else if g.char.isDigit then some (some (g.char.toNat - '0'.toNat), rest)
    else some (none, input)
  | [] => some (none, [])

/-- Chomping and depth in either order, up to the end of the line. -/
def read? (input : Input) : Option (BlockHeader × Input) := do
  let (before, input) := readChomp input
  let (depth, input) ← readDepth? input
  let (after, input) :=
    if before.isNone && depth.isSome then readChomp input else (none, input)
  let rest ← input.endLine?
  return (⟨(before <|> after).getD .clip, depth⟩, rest)

end BlockHeader

/-- The deepest column of the blank lines in front of the first text; none if a tab stands there. -/
def leadingColumn? : Nat → Input → Option Nat
  | deepest, [] => some deepest
  | deepest, g :: rest =>
    if g.char = ' ' then leadingColumn? (max deepest (g.column + 1)) rest
    else if isBreak g.char then leadingColumn? (max deepest g.column) rest
    else if g.char = '\t' then none
    else some (max deepest g.column)

/-- What is known of the lines read so far. -/
structure BlockText where
  /-- The text, last character first. -/
  read : List Char := []
  /-- The break that ended the last line with text. -/
  ending : List Char := []
  /-- The breaks of blank lines since, the latest in front. -/
  blankLines : List Char := []
  /-- The last line with text began with a blank. -/
  indented : Bool := false

namespace BlockText

/-- Begin a line with its first character. -/
def begin (literal : Bool) (text : BlockText) (c : Char) : BlockText :=
  let joint :=
    if !literal && text.ending = ['\n'] && !text.indented && !isBlank c then
      (if text.blankLines.isEmpty then [' '] else [])
    else text.ending
  { read := c :: (text.blankLines ++ (joint ++ text.read)), indented := isBlank c }

def finish (text : BlockText) : Chomp → List Char
  | .strip => text.read.reverse
  | .clip => (text.ending ++ text.read).reverse
  | .keep => (text.blankLines ++ (text.ending ++ text.read)).reverse

/-- Read lines indented to a column; `inLine` says whether the reader is behind the indentation. -/
def lines? (literal : Bool) (column : Nat) : Bool → BlockText → Input → Option (BlockText × Input)
  | _, text, [] => some (text, [])
  | true, text, g :: rest =>
    if isBreak g.char then lines? literal column false { text with ending := [g.char] } rest
    else lines? literal column true { text with read := g.char :: text.read } rest
  | false, text, g :: rest =>
    if g.column < column && g.char = ' ' then lines? literal column false text rest
    else if g.column < column && g.char = '\t' then none
    else if isBreak g.char then
      lines? literal column false { text with blankLines := g.char :: text.blankLines } rest
    else if g.column = column then lines? literal column true (text.begin literal g.char) rest
    else some (text, g :: rest)

end BlockText

/-- The scalar below a header. `margin` is the least column of the surrounding block's content. -/
def blockScalar? (literal : Bool) (margin : Nat) (input : Input) :
    Option (List Char × Input) := do
  let (header, input) ← BlockHeader.read? input
  let column ← match header.depth with
    | some depth => some (margin - 1 + depth)
    | none => (leadingColumn? 0 input).map (max · (max margin 1))
  let (text, rest) ← BlockText.lines? literal column false {} input
  return (text.finish header.chomp, rest)

end PluginLoader.Yaml
