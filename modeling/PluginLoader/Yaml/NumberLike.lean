import PluginLoader.Yaml.Scalar.Quoted

/-!
Texts that a plain scalar would present as something other than text: null, truth values, integers
of up to 128 bits and decimal numbers that a double can hold.
-/
namespace PluginLoader.Yaml

def nullWords : List String := ["null", "Null", "NULL", "~"]
def trueWords : List String := ["true", "True", "TRUE"]
def falseWords : List String := ["false", "False", "FALSE"]

namespace NumberLike

/-- The number that digits of a base make; none if there are no digits or other characters. -/
def natOfDigits? (base : Nat) (digits : List Char) : Option Nat :=
  if digits.isEmpty then none
  else digits.foldlM (fun n c => do
    let d ← hexDigit? c
    if d < base then some (n * base + d) else none) 0

def isSign (c : Char) : Bool := c = '+' || c = '-'

/-- The text behind a sign of one kind, if it begins so. -/
def behind (sign : Char) : List Char → Option (List Char)
  | c :: rest => if c = sign then some rest else none
  | [] => none

/-- A zero and digits behind it: text, though it looks like a number. -/
def isPadded (s : List Char) : Bool :=
  let digits := match s with
    | c :: rest => if isSign c then rest else s
    | [] => []
  match digits with
  | '0' :: rest => !rest.isEmpty && rest.all Char.isDigit
  | _ => false

/-- The base that a text names, and the digits it leaves. -/
def based? : List Char → Option (Nat × List Char)
  | '0' :: 'x' :: rest => some (16, rest)
  | '0' :: 'o' :: rest => some (8, rest)
  | '0' :: 'b' :: rest => some (2, rest)
  | _ => none

/-- A number below a bound, in a named base or in decimal without padding. -/
def isMagnitude (bound : Nat) (s : List Char) : Bool :=
  let named := match based? s with
    | some (base, digits) => (natOfDigits? base digits).any (· < bound)
    | none => false
  named || (!isPadded s && (natOfDigits? 10 s).any (· < bound))

/-- Integers of 128 bits, with or without a sign. -/
def isInteger (s : List Char) : Bool :=
  match behind '-' s with
  | some magnitude => isMagnitude (1 <<< 127 + 1) magnitude
  | none => isMagnitude (1 <<< 128) ((behind '+' s).getD s)

/-- Digits with at most one point among them, as a number and how many are behind the point. -/
def decimal? (s : List Char) : Option (Nat × Nat) :=
  let whole := s.takeWhile Char.isDigit
  let fraction := match s.dropWhile Char.isDigit with
    | [] => some []
    | '.' :: rest => if rest.all Char.isDigit then some rest else none
    | _ => none
  fraction.bind fun fraction =>
    (natOfDigits? 10 (whole ++ fraction)).map fun n => (n, fraction.length)

def exponent? (s : List Char) : Option Int :=
  match behind '-' s with
  | some digits => (natOfDigits? 10 digits).map fun n => -(n : Int)
  | none => (natOfDigits? 10 ((behind '+' s).getD s)).map fun n => (n : Int)

/-- From here on decimals round to no finite double. -/
def doubleBound : Nat := 1 <<< 1024 - 1 <<< 970

/-- Whether `n` times ten to the `scale` lies below the bound. Far scales decide themselves. -/
def isFinite (n : Nat) (scale : Int) : Bool :=
  let digits : Int := (Nat.toDigits 10 n).length
  if n = 0 || digits + scale < 300 then true
  else if digits + scale > 400 then false
  else if 0 ≤ scale then n * Nat.pow 10 scale.toNat < doubleBound
  else n < doubleBound * Nat.pow 10 (-scale).toNat

/-- Decimal notation without a sign. -/
def isFloat (s : List Char) : Bool :=
  let mantissa := s.takeWhile fun c => c ≠ 'e' && c ≠ 'E'
  let exponent := match s.dropWhile fun c => c ≠ 'e' && c ≠ 'E' with
    | [] => some 0
    | _ :: rest => exponent? rest
  match decimal? mantissa, exponent with
  | some (n, places), some exponent => isFinite n (exponent - places)
  | _, _ => false

/-- A decimal or one of the words for infinity and for no number. -/
def isReal (s : List Char) : Bool :=
  let text := String.ofList s
  let unsigned := (behind '+' s).getD s
  [".nan", ".NaN", ".NAN", "-.inf", "-.Inf", "-.INF"].contains text ||
    [".inf", ".Inf", ".INF"].contains (String.ofList unsigned) ||
    match behind '+' s, behind '-' s with
    | some rest, _ => isFloat rest
    | none, some rest => isFloat rest
    | none, none => isFloat s

end NumberLike

/-- Plain, the text would not be read as text, or is a padded number. -/
def looksOtherThanText (s : List Char) : Bool :=
  s.isEmpty || (nullWords ++ trueWords ++ falseWords).contains (String.ofList s) ||
    NumberLike.isPadded s || NumberLike.isInteger s || NumberLike.isReal s

end PluginLoader.Yaml
