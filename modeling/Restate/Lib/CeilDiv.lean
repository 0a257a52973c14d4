import Mathlib.Algebra.Order.Floor.Div

/-! Floor and ceiling division of natural numbers by a positive divisor, as the bounds they put
on a multiple, and how the ceiling grows over a step of fixed size: by the floor of the step over
the divisor, or by one more. -/

namespace Nat

variable {a b c n : ℕ}

theorem div_eq_iff_bracket (pos : 0 < n) : a / n = c ↔ c * n ≤ a ∧ a < (c + 1) * n := by
  constructor
  · rintro rfl
    exact ⟨Nat.div_mul_le_self a n, (Nat.div_lt_iff_lt_mul pos).mp (Nat.lt_succ_self _)⟩
  · rintro ⟨lower, upper⟩
    have atLeast : c ≤ a / n := (Nat.le_div_iff_mul_le pos).mpr lower
    have below : a / n < c + 1 := (Nat.div_lt_iff_lt_mul pos).mpr upper
    omega

theorem lt_ceilDiv_iff (pos : 0 < n) : c < a ⌈/⌉ n ↔ n * c < a := by
  rw [← not_le, ceilDiv_le_iff_le_mul pos, not_le]

theorem ceilDiv_mono (pos : 0 < n) (le : a ≤ b) : a ⌈/⌉ n ≤ b ⌈/⌉ n :=
  (gc_mul_ceilDiv pos).monotone_l le

theorem mul_ceilDiv_cancel (pos : 0 < n) (c : ℕ) : (n * c) ⌈/⌉ n = c := by
  simpa using smul_ceilDiv pos c

theorem ceilDiv_add_bounds (pos : 0 < n) (a step : ℕ) :
    a ⌈/⌉ n + step / n ≤ (a + step) ⌈/⌉ n ∧ (a + step) ⌈/⌉ n ≤ a ⌈/⌉ n + step / n + 1 := by
  have split : a + step + n - 1 = (a + step % n + n - 1) + n * (step / n) := by
    have := Nat.div_add_mod step n
    omega
  have whole : (a + step) ⌈/⌉ n = (a + step % n) ⌈/⌉ n + step / n := by
    rw [ceilDiv_eq_add_pred_div, ceilDiv_eq_add_pred_div, split, Nat.add_mul_div_left _ _ pos]
  have lower : a ⌈/⌉ n ≤ (a + step % n) ⌈/⌉ n := ceilDiv_mono pos (Nat.le_add_right a _)
  have upper : (a + step % n) ⌈/⌉ n ≤ a ⌈/⌉ n + 1 := by
    have below : a + step % n ≤ n * (a ⌈/⌉ n + 1) := by
      have : a ≤ n * (a ⌈/⌉ n) := (ceilDiv_le_iff_le_mul pos).mp le_rfl
      have := Nat.mod_lt step pos
      rw [Nat.mul_add, Nat.mul_one]
      omega
    exact (ceilDiv_le_iff_le_mul pos).mpr below
  rw [whole]
  omega

end Nat
