import Mathlib.Tactic.Ring
import PluginLoader.Text.Hex
import PluginLoader.Yaml.Scalar.Quoted

/-! Numbers in base sixteen, read from the front. -/
namespace PluginLoader.Hex

open Yaml (hexDigit?)

/-- The first digit is the most significant one. -/
theorem lower_succ (k n : Nat) :
    lower (k + 1) n = Nat.digitChar (n / 16 ^ k % 16) :: lower k n := by
  induction k generalizing n with
  | zero => simp [lower]
  | succ k ih =>
    rw [lower, ih (n / 16), Nat.div_div_eq_div_mul, ← Nat.pow_succ', List.cons_append]
    rfl

theorem upper_succ (k n : Nat) :
    upper (k + 1) n = (Nat.digitChar (n / 16 ^ k % 16)).toUpper :: upper k n := by
  rw [upper, lower_succ, List.map_cons, ← upper]

theorem hexDigit_lower (n : Nat) : hexDigit? (Nat.digitChar (n % 16)) = some (n % 16) := by
  have digits : ∀ d < 16, hexDigit? (Nat.digitChar d) = some d := by decide
  exact digits _ (Nat.mod_lt _ (by decide))

theorem hexDigit_upper (n : Nat) :
    hexDigit? (Nat.digitChar (n % 16)).toUpper = some (n % 16) := by
  have digits : ∀ d < 16, hexDigit? (Nat.digitChar d).toUpper = some d := by decide
  exact digits _ (Nat.mod_lt _ (by decide))

/-- A number so far, and the digits of another one behind it. -/
theorem append_digit (k value n : Nat) :
    (value * 16 + n / 16 ^ k % 16) * 16 ^ k + n % 16 ^ k =
      value * 16 ^ (k + 1) + n % 16 ^ (k + 1) := by
  have split : n % 16 ^ (k + 1) = n / 16 ^ k % 16 * 16 ^ k + n % 16 ^ k := by
    rw [Nat.pow_succ, Nat.mod_mul, Nat.mul_comm, Nat.add_comm]
  rw [split, Nat.pow_succ]
  ring

end PluginLoader.Hex
