/-!
Numbers in base sixteen, with a fixed count of digits, most significant first.
-/
namespace PluginLoader.Hex

def lower : Nat → Nat → List Char
  | 0, _ => []
  | digits + 1, n => lower digits (n / 16) ++ [Nat.digitChar (n % 16)]

def upper (digits n : Nat) : List Char := (lower digits n).map Char.toUpper

end PluginLoader.Hex
