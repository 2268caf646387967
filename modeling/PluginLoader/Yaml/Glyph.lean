/-!
Text as YAML sees it: which characters a text may hold, where its lines end, and each character
with the line and column it stands on.
-/
namespace PluginLoader.Yaml

def byteOrderMark : Char := Char.ofNat 0xFEFF
def lineSeparator : Char := Char.ofNat 0x2028
def paragraphSeparator : Char := Char.ofNat 0x2029
def nextLine : Char := Char.ofNat 0x85

/-- What a text may hold. Other control characters have to be escaped. -/
def isAllowed (c : Char) : Bool :=
  c = '\t' || c = '\n' || c = '\r' || c = nextLine || (' ' ≤ c && c ≤ '~') ||
    (0xA0 ≤ c.toNat && c.toNat ≤ 0xFFFD) || 0x10000 ≤ c.toNat

/-- What may be written without an escape. -/
def isPrintable (c : Char) : Bool :=
  isAllowed c && c ≠ '\t' && c ≠ '\r' && c ≠ nextLine && c ≠ byteOrderMark

/-- One line break for each of the ways to end a line; the two separators stay what they are. -/
def unifyBreaks : List Char → List Char
  | '\r' :: '\n' :: rest => '\n' :: unifyBreaks rest
  | c :: rest => (if c = '\r' || c = nextLine then '\n' else c) :: unifyBreaks rest
  | [] => []

def isBreak (c : Char) : Bool := c = '\n' || c = lineSeparator || c = paragraphSeparator
def isBlank (c : Char) : Bool := c = ' ' || c = '\t'
def isGap (c : Char) : Bool := isBlank c || isBreak c

/-- Letters, digits, `_` and `-`, all of ASCII. -/
def isWord (c : Char) : Bool := c.isAlphanum || c = '_' || c = '-'

/-- Brackets, braces and the comma. -/
def isFlowMark (c : Char) : Bool :=
  c = ',' || c = '[' || c = ']' || c = '\x7b' || c = '\x7d'

structure Glyph where
  char : Char
  line : Nat
  /-- How many characters are in front of it on its line. -/
  column : Nat
  /-- How many octets those take. -/
  offset : Nat

abbrev Input := List Glyph

namespace Input

/-- Characters from a place on. -/
def place (line column offset : Nat) : List Char → Input
  | [] => []
  | c :: rest =>
    ⟨c, line, column, offset⟩ ::
      if isBreak c then place (line + 1) 0 0 rest
      else place line (column + 1) (offset + c.utf8Size) rest

/-- A text that holds allowed characters only. -/
def ofText? (text : String) : Option Input :=
  if text.toList.all isAllowed then some (place 0 0 0 (unifyBreaks text.toList)) else none

/-- The first character satisfies `p`. -/
def starts (p : Char → Bool) : Input → Bool
  | [] => false
  | g :: _ => p g.char

/-- The input ends here, or a blank or a line break comes next. -/
def atGap : Input → Bool
  | [] => true
  | g :: _ => isGap g.char

def chars (input : Input) : List Char := input.map (·.char)

def dropBlanks (input : Input) : Input := input.dropWhile (isBlank ·.char)
def dropLine (input : Input) : Input := input.dropWhile (!isBreak ·.char)

/-- The longest start whose characters satisfy `p`, and what follows it. -/
def span (p : Char → Bool) (input : Input) : List Char × Input :=
  ((input.takeWhile (p ·.char)).map (·.char), input.dropWhile (p ·.char))

/-- Three times `c` at the start of a line and nothing else on it but after a blank. -/
def marksDocument (c : Char) : Input → Bool
  | x :: y :: z :: rest =>
    x.column = 0 && x.char = c && y.char = c && z.char = c && Input.atGap rest
  | _ => false

/-- A line that starts or ends a document. -/
def atDocumentMark (input : Input) : Bool := input.marksDocument '-' || input.marksDocument '.'

/-- Blanks, a comment and the line break that have to end a line. -/
def endLine? (input : Input) : Option Input :=
  let input := dropBlanks input
  let input := if starts (· = '#') input then dropLine input else input
  match input with
  | [] => some []
  | g :: rest => if isBreak g.char then some rest else none

end Input
end PluginLoader.Yaml
