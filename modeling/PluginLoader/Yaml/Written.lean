import PluginLoader.Text.Hex
import PluginLoader.Yaml.NumberLike
import PluginLoader.Yaml.Token

/-!
How a text is written as a scalar: plain if nothing in it could be taken for something else, else
in single quotes, as indented lines if it has several, and in double quotes if some character needs
an escape or blanks stand where the other styles would lose them.
-/
namespace PluginLoader.Yaml

/-- Columns by which inner blocks are indented. -/
def indentation : Nat := 2

def pad (columns : Nat) : List Char := List.replicate columns ' '

namespace Written

/-- Some character satisfying `p` stands directly before one satisfying `q`. -/
def meets (p q : Char → Bool) (s : List Char) : Bool := (s.zip s.tail).any fun (a, b) => p a && q b

def startsWith (p : Char → Bool) (s : List Char) : Bool := s.head?.any p
def endsWith (p : Char → Bool) (s : List Char) : Bool := s.getLast?.any p

def isSpace (c : Char) : Bool := c = ' '
def isEdge (c : Char) : Bool := isSpace c || isBreak c

/-- Characters that mean something else at the start of a scalar. -/
def isLeadingIndicator (c : Char) : Bool := "#,[]\x7b\x7d&*!|>\x27\x22%@\x60".toList.contains c

/-- Something in the text could be taken for an indicator. -/
def hasIndicator (s : List Char) : Bool :=
  "---".toList.isPrefixOf s || "...".toList.isPrefixOf s || startsWith isLeadingIndicator s ||
    (startsWith (fun c => c = '?' || c = '-') s && s.tail.head?.all isGap) ||
    meets (· = ':') isGap s || endsWith (· = ':') s || meets isGap (· = '#') s

/-- The style of a text. -/
def style (s : List Char) : ScalarStyle :=
  let escapes := !s.all isPrintable || meets isSpace isBreak s
  if s.contains '\n' then
    if escapes || endsWith isSpace s then .doubleQuoted else .literal
  else if escapes || meets isBreak isSpace s then .doubleQuoted
  else if looksOtherThanText s || hasIndicator s || s.any isBreak || startsWith isEdge s ||
      endsWith isEdge s then .singleQuoted
  else .plain

/-- Text between single quotes; behind a line break the next line is indented. -/
def single (columns : Nat) : Bool → List Char → List Char
  | fresh, [] => if fresh then pad columns else []
  | fresh, c :: rest =>
    if isBreak c then c :: single columns true rest
    else
      (if fresh then pad columns else []) ++
        (if c = singleQuote then [c, c] else [c]) ++ single columns false rest

/-- The letter of a one character escape. -/
def escapeLetter? (c : Char) : Option Char :=
  ['0', 'a', 'b', 't', 'n', 'v', 'f', 'r', 'e', '\x22', '\\', 'N', '_', 'L', 'P'].find?
    fun letter => simpleEscape? letter = some c

def escape (c : Char) : List Char :=
  match escapeLetter? c with
  | some letter => ['\\', letter]
  | none =>
    if c.toNat ≤ 0xFF then '\\' :: 'x' :: Hex.upper 2 c.toNat
    else if c.toNat ≤ 0xFFFF then '\\' :: 'u' :: Hex.upper 4 c.toNat
    else '\\' :: 'U' :: Hex.upper 8 c.toNat

def double (s : List Char) : List Char :=
  s.flatMap fun c =>
    if !isPrintable c || isBreak c || c = doubleQuote || c = '\\' then escape c else [c]

/-- Lines, each indented unless it is empty. -/
def lines (columns : Nat) : Bool → List Char → List Char
  | _, [] => []
  | fresh, c :: rest =>
    if isBreak c then c :: lines columns true rest
    else (if fresh then pad columns else []) ++ c :: lines columns false rest

/-- What a block header says: the depth if the text itself begins with a blank, and how it ends. -/
def header (s : List Char) : List Char :=
  (if startsWith isEdge s then Nat.toDigits 10 indentation else []) ++
    match s.reverse with
    | last :: before =>
      if !isBreak last then ['-'] else if before.head?.all isBreak then ['+'] else []
    | [] => ['-']

end Written

/-- A text as a scalar in a block whose lines begin at a column, and a style for it. -/
def writtenAs (columns : Nat) (s : List Char) : ScalarStyle → List Char
  | .plain => s
  | .singleQuoted => singleQuote :: Written.single columns false s ++ [singleQuote]
  | .doubleQuoted => doubleQuote :: Written.double s ++ [doubleQuote]
  | .literal | .folded => '|' :: Written.header s ++ '\n' :: Written.lines columns true s

/-- A text on a single line. -/
def writtenKey (s : List Char) : List Char :=
  writtenAs 0 s (if s.any isBreak then .doubleQuoted else Written.style s)

/-- A text and the end of its last line. -/
def writtenLine (columns : Nat) (s : List Char) : List Char :=
  let text := writtenAs columns s (Written.style s)
  if Written.endsWith isBreak text then text else text ++ ['\n']

end PluginLoader.Yaml
