import PluginLoader.Yaml.Scalar.Gap

/-!
Scalars in quotes. Between single quotes a quote is written twice and nothing is escaped; between
double quotes a backslash starts an escape. Lines are folded in both, and neither holds a document
mark.
-/
namespace PluginLoader.Yaml

def singleQuote : Char := '\x27'
def doubleQuote : Char := '\x22'

/-- The text up to the closing single quote, and what follows it. -/
def singleQuoted? : Gap → List Char → Input → Option (List Char × Input)
  | _, _, [] => none
  | gap, read, [g] =>
    if g.char = singleQuote && !isGap g.char then some ((gap.folded ++ read).reverse, []) else none
  | gap, read, g :: h :: rest =>
    if isGap g.char then singleQuoted? (gap.extend g.char) read (h :: rest)
    else if Input.atDocumentMark (g :: h :: rest) then none
    else if g.char ≠ singleQuote then
      singleQuoted? {} (g.char :: (gap.folded ++ read)) (h :: rest)
    else if h.char = singleQuote then singleQuoted? {} (singleQuote :: (gap.folded ++ read)) rest
    else some ((gap.folded ++ read).reverse, h :: rest)

/-- Escapes of one character. -/
def simpleEscape? (c : Char) : Option Char :=
  match c with
  | '0' => some (Char.ofNat 0x00)
  | 'a' => some (Char.ofNat 0x07)
  | 'b' => some (Char.ofNat 0x08)
  | 't' | '\t' => some (Char.ofNat 0x09)
  | 'n' => some (Char.ofNat 0x0A)
  | 'v' => some (Char.ofNat 0x0B)
  | 'f' => some (Char.ofNat 0x0C)
  | 'r' => some (Char.ofNat 0x0D)
  | 'e' => some (Char.ofNat 0x1B)
  | ' ' => some ' '
  | '\x22' => some '\x22'
  | '/' => some '/'
  | '\\' => some '\\'
  | 'N' => some nextLine
  | '_' => some (Char.ofNat 0xA0)
  | 'L' => some lineSeparator
  | 'P' => some paragraphSeparator
  | _ => none

/-- How many hexadecimal digits an escape takes. -/
def escapeDigits? (c : Char) : Option Nat :=
  match c with
  | 'x' => some 2
  | 'u' => some 4
  | 'U' => some 8
  | _ => none

def hexDigit? (c : Char) : Option Nat :=
  if c.isDigit then some (c.toNat - '0'.toNat)
  else if 'a' ≤ c && c ≤ 'f' then some (c.toNat - 'a'.toNat + 10)
  else if 'A' ≤ c && c ≤ 'F' then some (c.toNat - 'A'.toNat + 10)
  else none

def charOfNat? (n : Nat) : Option Char := if n.isValidChar then some (Char.ofNat n) else none

/-- Where a reader stands relative to an escape. -/
inductive EscapeState where
  | outside
  | begun
  /-- The digits still to come and the number the others make. -/
  | digits (left value : Nat)

/-- The text up to the closing double quote, and what follows it. -/
def doubleQuoted? : EscapeState → Gap → List Char → Input → Option (List Char × Input)
  | _, _, _, [] => none
  | .outside, gap, read, g :: rest =>
    if isGap g.char then doubleQuoted? .outside (gap.extend g.char) read rest
    else if Input.atDocumentMark (g :: rest) then none
    else if g.char = doubleQuote then some ((gap.folded ++ read).reverse, rest)
    else if g.char = '\\' then doubleQuoted? .begun {} (gap.folded ++ read) rest
    else doubleQuoted? .outside {} (g.char :: (gap.folded ++ read)) rest
  | .begun, _, read, g :: rest =>
    if isBreak g.char then doubleQuoted? .outside .escaped read rest
    else
      match simpleEscape? g.char, escapeDigits? g.char with
      | some c, _ => doubleQuoted? .outside {} (c :: read) rest
      | none, some digits => doubleQuoted? (.digits digits 0) {} read rest
      | none, none => none
  | .digits left value, _, read, g :: rest =>
    match hexDigit? g.char with
    | none => none
    | some digit =>
      if left ≤ 1 then
        match charOfNat? (value * 16 + digit) with
        | some c => doubleQuoted? .outside {} (c :: read) rest
        | none => none
      else doubleQuoted? (.digits (left - 1) (value * 16 + digit)) {} read rest

end PluginLoader.Yaml
