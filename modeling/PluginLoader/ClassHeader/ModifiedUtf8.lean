import PluginLoader.Text.Utf8

/-!
The modified UTF-8 of constant pool strings. Zero is written `C0 80`, and a supplementary character
as the three byte forms of its two surrogates. Text that is plain UTF-8 without a zero byte is taken
as it stands; all else goes through UTF-16 units.
-/
namespace PluginLoader.ModifiedUtf8

/-- The low six bits of a continuation byte. -/
def continuation? (b : UInt8) : Option Nat :=
  if 0x80 ≤ b ∧ b ≤ 0xBF then some (b.toNat % 64) else none

/-- The UTF-16 units of one, two and three byte forms. No zero byte and none above `EF` starts
one. -/
def units? : List UInt8 → Option (List Nat)
  | [] => some []
  | a :: rest =>
    if 0x01 ≤ a ∧ a ≤ 0x7F then (units? rest).map (a.toNat :: ·)
    else if 0xC0 ≤ a ∧ a ≤ 0xDF then
      match rest with
      | b :: rest => do
        let x ← continuation? b
        (units? rest).map ((a.toNat % 32 * 64 + x) :: ·)
      | [] => none
    else if 0xE0 ≤ a ∧ a ≤ 0xEF then
      match rest with
      | b :: c :: rest => do
        let x ← continuation? b
        let y ← continuation? c
        (units? rest).map ((a.toNat % 16 * 4096 + x * 64 + y) :: ·)
      | _ => none
    else none

def isHigh (u : Nat) : Bool := 0xD800 ≤ u && u < 0xDC00
def isLow (u : Nat) : Bool := 0xDC00 ≤ u && u < 0xE000

/-- The characters of UTF-16 units; every surrogate has to be paired. -/
def ofUnits? : List Nat → Option (List Char)
  | [] => some []
  | u :: rest =>
    if isHigh u then
      match rest with
      | v :: rest =>
        if isLow v then
          (ofUnits? rest).map (Char.ofNat (0x10000 + (u - 0xD800) * 1024 + (v - 0xDC00)) :: ·)
        else none
      | [] => none
    else if isLow u then none
    else (ofUnits? rest).map (Char.ofNat u :: ·)

/-- The byte by byte reading. -/
def decodeUnits? (raw : List UInt8) : Option (List Char) := units? raw >>= ofUnits?

/-- The text of a constant. -/
def decode? (raw : List UInt8) : Option (List Char) :=
  match Utf8.decode? raw with
  | some text => if raw.contains 0 then decodeUnits? raw else some text
  | none => decodeUnits? raw

/-- The written form of a character: one, two or three bytes, or a pair of three byte forms. -/
def encodeUnit (u : Nat) : List UInt8 :=
  if u = 0 then [0xC0, 0x80]
  else if u < 0x80 then [UInt8.ofNat u]
  else if u < 0x800 then [UInt8.ofNat (0xC0 + u / 64), UInt8.ofNat (0x80 + u % 64)]
  else
    [UInt8.ofNat (0xE0 + u / 4096), UInt8.ofNat (0x80 + u / 64 % 64), UInt8.ofNat (0x80 + u % 64)]

def unitsOf (c : Char) : List Nat :=
  if c.toNat < 0x10000 then [c.toNat]
  else [0xD800 + (c.toNat - 0x10000) / 1024, 0xDC00 + (c.toNat - 0x10000) % 1024]

def encode (text : List Char) : List UInt8 := (text.flatMap unitsOf).flatMap encodeUnit

end PluginLoader.ModifiedUtf8
