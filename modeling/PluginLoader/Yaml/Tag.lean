import PluginLoader.Yaml.Scalar.Quoted

/-!
Tags and the directives in front of a document. A tag is a handle, which stands for a lead that a
directive names, and a suffix; both are octets, since a percent escape writes any octet. A zero
octet ends what it stands in.
-/
namespace PluginLoader.Yaml

abbrev Octets := List UInt8

def octets (s : String) : Octets := s.toUTF8.toList
def octetOf (c : Char) : UInt8 := UInt8.ofNat c.toNat

/-- A tag before its handle is looked up. No handle means the suffix is all of it. -/
structure TagName where
  handle : Option (List Char)
  suffix : Octets
  deriving DecidableEq

inductive Directive where
  | version (major minor : Nat)
  | tagLead (handle : List Char) (lead : Octets)
  deriving DecidableEq

def isUriMark (c : Char) : Bool := ";/?:@&=+$.!~*\x27()".toList.contains c
def isUriBracket (c : Char) : Bool := c = ',' || c = '[' || c = ']'

/-- How many octets follow the first one of a character. -/
def octetsOwed? (first : UInt8) : Option Nat :=
  if first < 0x80 then some 0
  else if first &&& 0xE0 = 0xC0 then some 1
  else if first &&& 0xF0 = 0xE0 then some 2
  else if first &&& 0xF8 = 0xF0 then some 3
  else none

/-- The octet of two hexadecimal digits. -/
def hexOctet? (a b : Char) : Option UInt8 := do
  return UInt8.ofNat ((← hexDigit? a) * 16 + (← hexDigit? b))

/-- What a first octet or a further one leaves owed. -/
def owedAfter? : Nat → UInt8 → Option Nat
  | 0, octet => octetsOwed? octet
  | owed + 1, octet => if octet &&& 0xC0 = 0x80 then some owed else none

/-- The octets of a URI, as long as its characters go on. -/
def uri? (brackets : Bool) : Nat → Octets → Input → Option (Octets × Input)
  | owed, read, [] => if owed = 0 then some (read.reverse, []) else none
  | owed, read, g :: rest =>
    if g.char = '%' then
      match rest with
      | a :: b :: rest =>
        match hexOctet? a.char b.char with
        | none => none
        | some octet =>
          match owedAfter? owed octet with
          | none => none
          | some owed => uri? brackets owed (octet :: read) rest
      | _ => none
    else if owed ≠ 0 then none
    else if isWord g.char || isUriMark g.char || (brackets && isUriBracket g.char) then
      uri? brackets 0 (octetOf g.char :: read) rest
    else some (read.reverse, g :: rest)

def upToZero (octets : Octets) : Octets := octets.takeWhile (· ≠ 0)

/-- A URI of at least one character. -/
def someUri? (brackets : Bool) (input : Input) : Option (Octets × Input) := do
  let (octets, rest) ← uri? brackets 0 [] input
  if octets.isEmpty then none else return (upToZero octets, rest)

/-- `!`, `!!`, or a word between two of them; a word may also lack the second. -/
def tagHandle? (input : Input) : Option (List Char × Input) :=
  match input with
  | [] => none
  | g :: rest =>
    if g.char ≠ '!' then none
    else
      let (word, rest) := Input.span isWord rest
      match rest with
      | h :: more =>
      some (if h.char = '!' then ('!' :: word ++ ['!'], more) else ('!' :: word, rest))
      | [] => some ('!' :: word, [])

/-- A handle that a directive may name. -/
def isClosedHandle (handle : List Char) : Bool := handle.length > 1 && handle.getLast? = some '!'

/-- The tag after a `!<`. -/
def verbatimTag? (input : Input) : Option (TagName × Input) := do
  let (suffix, rest) ← someUri? true input
  match rest with
  | g :: rest => if g.char = '>' then return (⟨none, suffix⟩, rest) else none
  | [] => none

def shorthandTag? (input : Input) : Option (TagName × Input) := do
  let (handle, rest) ← tagHandle? input
  if isClosedHandle handle then
    let (suffix, rest) ← someUri? false rest
    return (⟨some handle, suffix⟩, rest)
  else
    let (more, rest) ← uri? false 0 [] rest
    let suffix := upToZero (handle.tail.map octetOf ++ more)
    if suffix.isEmpty then return (⟨none, octets "!"⟩, rest)
    else return (⟨some ['!'], suffix⟩, rest)

/-- The tag at the start of an input. A gap has to follow it, or a comma inside brackets. -/
def tagName? (flow : Bool) (input : Input) : Option (TagName × Input) := do
  let (tag, rest) ← match input with
    | _ :: g :: rest => if g.char = '<' then verbatimTag? rest else shorthandTag? input
    | _ => shorthandTag? input
  if Input.atGap rest || (flow && Input.starts (· = ',') rest) then return (tag, rest) else none

def decimal (digits : List Char) : Nat :=
  digits.foldl (fun n c => n * 10 + (c.toNat - '0'.toNat)) 0

/-- A number of at most nine digits. -/
def versionNumber? (input : Input) : Option (Nat × Input) :=
  let (digits, rest) := input.span Char.isDigit
  if digits.isEmpty || digits.length > 9 then none else some (decimal digits, rest)

def versionDirective? (input : Input) : Option (Directive × Input) := do
  let (major, rest) ← versionNumber? input.dropBlanks
  match rest with
  | g :: rest =>
    if g.char ≠ '.' then none
    let (minor, rest) ← versionNumber? rest
    return (.version major minor, rest)
  | [] => none

def tagDirective? (input : Input) : Option (Directive × Input) := do
  let (handle, rest) ← tagHandle? input.dropBlanks
  if handle ≠ ['!'] && !isClosedHandle handle then none
  if !rest.starts isBlank then none
  let (lead, rest) ← someUri? true rest.dropBlanks
  if rest.atGap then return (.tagLead handle lead, rest) else none

/-- The directive behind a `%`, and what follows its line. -/
def directive? (input : Input) : Option (Directive × Input) := do
  let (name, rest) := input.span isWord
  if !rest.atGap then none
  let (directive, rest) ←
    if name = "YAML".toList then versionDirective? rest
    else if name = "TAG".toList then tagDirective? rest
    else none
  return (directive, ← rest.endLine?)

end PluginLoader.Yaml
