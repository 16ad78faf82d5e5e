import Mathlib.Data.Int.Basic
import Mathlib.Tactic.Ring

namespace Go

/-!
# Go's `int32` and `int64`

Values are integers; arithmetic wraps around at `2 ^ 31` and at `2 ^ 63`.
-/

/-- The value an `int64` holds after an operation whose exact result is `x`. -/
def wrap64 (x : ℤ) : ℤ := x.bmod (2 ^ 64)

/-- The value an `int32` holds after an operation whose exact result is `x`. -/
def wrap32 (x : ℤ) : ℤ := x.bmod (2 ^ 32)

/-- Results that fit are kept. -/
theorem wrap32_eq {x : ℤ} (h₁ : -2 ^ 31 ≤ x) (h₂ : x < 2 ^ 31) : wrap32 x = x := by
  unfold wrap32
  rw [Int.bmod_def]
  split <;> omega

theorem wrap32_bounds (x : ℤ) : -2 ^ 31 ≤ wrap32 x ∧ wrap32 x < 2 ^ 31 := by
  unfold wrap32
  rw [Int.bmod_def]
  split <;> omega

theorem wrap64_bounds (x : ℤ) : -2 ^ 63 ≤ wrap64 x ∧ wrap64 x < 2 ^ 63 := by
  unfold wrap64
  rw [Int.bmod_def]
  split <;> omega

/-- Past the largest value, counting goes on from the smallest. -/
theorem wrap32_over {x : ℤ} (h₁ : 2 ^ 31 ≤ x) (h₂ : x < 2 ^ 32) : wrap32 x = x - 2 ^ 32 := by
  unfold wrap32
  rw [Int.bmod_def]
  split <;> omega

/-- Wrapping an operand first changes nothing. -/
theorem wrap32_add (x y : ℤ) : wrap32 (wrap32 x + y) = wrap32 (x + y) :=
  Int.bmod_add_bmod

end Go
