import PluginLoader.Yaml.Scalar.Gap

/-!
Scalars without quotes. One ends at a comment, at a document mark, where the next line is not
indented enough, at a colon before a gap, and inside brackets at every flow mark.
-/
namespace PluginLoader.Yaml

/-- A scalar's text, whether a line has ended behind it, and the rest of the input. -/
structure PlainScalar where
  text : List Char
  endsLine : Bool
  rest : Input

namespace PlainScalar

/-- Where a scalar stops behind a gap. `margin` is the least column of its further lines. -/
def stopsAfterGap (flow : Bool) (margin : Nat) (input : Input) : Bool :=
  match input with
  | [] => true
  | g :: _ => (!flow && g.column < margin) || g.char = '#' || input.atDocumentMark

/-- Where a scalar stops anywhere. -/
def stops (flow : Bool) : Input → Bool
  | [] => true
  | g :: rest => (g.char = ':' && Input.atGap rest) || (flow && isFlowMark g.char)

/-- A colon inside brackets directly before a flow mark or a question mark. -/
def isStrayColon (flow : Bool) : Input → Bool
  | g :: rest => flow && g.char = ':' && Input.starts (fun c => isFlowMark c || c = '?') rest
  | [] => false

/-- Read on; `read` holds what was read so far, last character first. -/
def readFrom? (flow : Bool) (margin : Nat) : Gap → List Char → Input → Option PlainScalar
  | gap, read, [] => some ⟨read.reverse, gap.broken, []⟩
  | gap, read, g :: rest =>
    if isGap g.char then
      if gap.broken && g.column < margin && g.char = '\t' then none
      else readFrom? flow margin (gap.extend g.char) read rest
    else if !gap.isEmpty && stopsAfterGap flow margin (g :: rest) then
      some ⟨read.reverse, gap.broken, g :: rest⟩
    else if isStrayColon flow (g :: rest) then none
    else if stops flow (g :: rest) then some ⟨read.reverse, gap.broken, g :: rest⟩
    else readFrom? flow margin {} (g.char :: (gap.folded ++ read)) rest

end PlainScalar

/-- The plain scalar at the start of an input; none if a tab stands where indentation has to. -/
def plainScalar? (flow : Bool) (margin : Nat) (input : Input) : Option PlainScalar :=
  PlainScalar.readFrom? flow margin {} [] input

end PluginLoader.Yaml
