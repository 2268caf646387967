import PluginLoader.Yaml.Glyph

/-!
What stands between two stretches of a scalar that is written over several lines. Blanks within a
line are kept; a single line break becomes a space, and of several the first one goes.
-/
namespace PluginLoader.Yaml

/-- Blanks and breaks read so far, the latest in front. -/
structure Gap where
  blanks : List Char := []
  /-- A line has ended; blanks no longer count. -/
  broken : Bool := false
  first : Option Char := none
  further : List Char := []

namespace Gap

def isEmpty (gap : Gap) : Bool := gap.blanks.isEmpty && !gap.broken

def blank (gap : Gap) (c : Char) : Gap :=
  if gap.broken then gap else { gap with blanks := c :: gap.blanks }

def lineBreak (gap : Gap) (c : Char) : Gap :=
  if gap.broken then { gap with further := c :: gap.further }
  else { broken := true, first := some c }

/-- The gap behind a line break that does not count. -/
def escaped : Gap := { broken := true }

def extend (gap : Gap) (c : Char) : Gap := if isBreak c then gap.lineBreak c else gap.blank c

/-- What the gap stands for, last character first. -/
def folded (gap : Gap) : List Char :=
  if gap.broken then
    match gap.first with
    | some c => if c = '\n' then (if gap.further.isEmpty then [' '] else gap.further)
      else gap.further ++ [c]
    | none => gap.further
  else gap.blanks

end Gap
end PluginLoader.Yaml
