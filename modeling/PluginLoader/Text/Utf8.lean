/-!
UTF-8 read byte by byte. A byte list splits into characters and ill-formed stretches; a stretch is
the longest start of some character that the next byte rules out. Strict reading wants no
ill-formed stretch, lossy reading puts U+FFFD for each.
-/
namespace PluginLoader.Utf8

/-- A character begun: the bytes still owed, its leading bits, and what the next byte may be. -/
structure Begun where
  owed : Nat
  bits : Nat
  low : UInt8
  high : UInt8

/-- What a first byte gives: a character, the start of one, or an ill-formed stretch. -/
def enter (a : UInt8) : List (Option Char) × Option Begun :=
  if a < 0x80 then ([some (Char.ofNat a.toNat)], none)
  else if 0xC2 ≤ a ∧ a ≤ 0xDF then ([], some ⟨0, a.toNat % 32, 0x80, 0xBF⟩)
  else if 0xE0 ≤ a ∧ a ≤ 0xEF then
    ([], some ⟨1, a.toNat % 16, if a = 0xE0 then 0xA0 else 0x80, if a = 0xED then 0x9F else 0xBF⟩)
  else if 0xF0 ≤ a ∧ a ≤ 0xF4 then
    ([], some ⟨2, a.toNat % 8, if a = 0xF0 then 0x90 else 0x80, if a = 0xF4 then 0x8F else 0xBF⟩)
  else ([none], none)

/-- One byte more. A byte that cannot continue ends the stretch and is read as a first byte. -/
def step : Option Begun → UInt8 → List (Option Char) × Option Begun
  | none, a => enter a
  | some p, b =>
    if p.low ≤ b ∧ b ≤ p.high then
      match p.owed with
      | 0 => ([some (Char.ofNat (p.bits * 64 + b.toNat % 64))], none)
      | owed + 1 => ([], some ⟨owed, p.bits * 64 + b.toNat % 64, 0x80, 0xBF⟩)
    else (none :: (enter b).1, (enter b).2)

/-- The characters from a state on, in order, with `none` for each ill-formed stretch. -/
def stretches : Option Begun → List UInt8 → List (Option Char)
  | none, [] => []
  | some _, [] => [none]
  | state, b :: rest => (step state b).1 ++ stretches (step state b).2 rest

/-- The characters of well-formed UTF-8. -/
def decode? (bytes : List UInt8) : Option (List Char) := (stretches none bytes).mapM id

/-- Text with U+FFFD for every ill-formed stretch. -/
def decodeLossy (bytes : List UInt8) : List Char :=
  (stretches none bytes).map (·.getD (Char.ofNat 0xFFFD))

end PluginLoader.Utf8
