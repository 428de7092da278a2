import Mathlib.Algebra.Group.Int.Defs
import Mathlib.Algebra.Group.Nat.Defs

/-!
This module contains the arithmetic of unsigned machine words of `w` bits on natural numbers:
`wrappingAdd`, `wrappingSub` and `wrappingMul` for the operations that wrap around, `saturatingAdd` and
`saturatingMul` for those that stop at the largest word. Saturating subtraction is subtraction of natural
numbers. `signed` tells whether the result of an operation on signed words is one.
-/

namespace Word

def max (w : Nat) : Nat := 2 ^ w - 1

def wrappingAdd (w a b : Nat) : Nat := (a + b) % 2 ^ w

def wrappingSub (w a b : Nat) : Nat := (a + (2 ^ w - b % 2 ^ w)) % 2 ^ w

def wrappingMul (w a b : Nat) : Nat := a * b % 2 ^ w

def saturatingAdd (w a b : Nat) : Nat := min (a + b) (max w)

def saturatingMul (w a b : Nat) : Nat := min (a * b) (max w)

/-- An overflow is `none`. -/
def signed (w : Nat) (x : Int) : Option Int :=
  if -2 ^ (w - 1) ≤ x ∧ x < 2 ^ (w - 1) then some x else none

theorem saturatingAdd_le_iff {w a b c : Nat} (hc : c < max w)
    : saturatingAdd w a b ≤ c ↔ a + b ≤ c := by
  unfold saturatingAdd
  omega

theorem wrappingAdd_mod (w a b c : Nat)
    : (wrappingAdd w a b + c) % 2 ^ w = (a + b + c) % 2 ^ w := by
  unfold wrappingAdd
  rw [Nat.mod_add_mod]

theorem wrappingSub_mod (w a b c : Nat)
    : (wrappingSub w a b + (b + c)) % 2 ^ w = (a + c) % 2 ^ w := by
  have hb : b % 2 ^ w < 2 ^ w := Nat.mod_lt _ (Nat.two_pow_pos w)
  have hdiv : 2 ^ w * (b / 2 ^ w) + b % 2 ^ w = b := Nat.div_add_mod _ _
  unfold wrappingSub
  rw [Nat.mod_add_mod]
  have : a + (2 ^ w - b % 2 ^ w) + (b + c) = a + c + 2 ^ w * (b / 2 ^ w + 1) := by
    rw [Nat.mul_add]
    omega
  rw [this, Nat.add_mul_mod_self_left]

theorem wrappingAdd_eq {w a b : Nat} (h : a + b < 2 ^ w) : wrappingAdd w a b = a + b := by
  unfold wrappingAdd
  exact Nat.mod_eq_of_lt h

theorem wrappingSub_eq {w a b : Nat} (ha : a < 2 ^ w) (h : b ≤ a) : wrappingSub w a b = a - b := by
  unfold wrappingSub
  rw [Nat.mod_eq_of_lt (Nat.lt_of_le_of_lt h ha)]
  have : a + (2 ^ w - b) = a - b + 2 ^ w := by omega
  rw [this, Nat.add_mod_right, Nat.mod_eq_of_lt (by omega)]

theorem wrappingMul_eq {w a b : Nat} (h : a * b < 2 ^ w) : wrappingMul w a b = a * b := by
  unfold wrappingMul
  exact Nat.mod_eq_of_lt h

end Word
