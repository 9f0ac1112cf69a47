import Mathlib
import Honeycomb.Number.Scalar

/-!
# Exact arithmetic

The real numbers as scalars. What is written once over a `Scalar` and runs on doubles is read
over `ℝ` where a statement is about exact arithmetic.

* The instance `Scalar ℝ` — its remainder is the one that lies between zero and the magnitude of
  the divisor; every number is finite.
* `Scalar.ofInt_real`, `Scalar.sqrt_real`, … — the operations under the names of real analysis;
  `Scalar.acos_clamp` — the inverse cosine as the program takes it.
* `Scalar.modulo_add_mul` — the remainder does not see multiples of the divisor;
  `Scalar.modulo_of_pos` — it differs from the number by one of them.
-/

set_option autoImplicit false

namespace Honeycomb

noncomputable instance : Scalar ℝ where
  beq a b := decide (a = b)
  isLess a b := decide (a < b)
  isLess_iff _ _ := decide_eq_true_iff
  isAtMost a b := decide (a ≤ b)
  isAtMost_iff _ _ := decide_eq_true_iff
  ofInt n := n
  pi := Real.pi
  abs a := |a|
  sqrt := Real.sqrt
  distance x y z x' y' z' := √((x - x') * (x - x') + (y - y') * (y - y') + (z - z') * (z - z'))
  sin := Real.sin
  cos := Real.cos
  atan := Real.arctan
  acos := Real.arccos
  pow a b := a ^ b
  modulo a b := a - |b| * ⌊a / |b|⌋
  ceil a := ⌈a⌉
  toCount a := min ⌊a⌋₊ (2 ^ 32 - 1)
  isFinite _ := true
  before a b := decide (a ≤ b)
  before_total a b := by simpa using le_total a b
  before_trans a b c := by simpa using le_trans

namespace Scalar

@[simp] theorem beq_real (a b : ℝ) : (a == b) = decide (a = b) := rfl

@[simp] theorem ofInt_real (n : Int) : (ofInt n : ℝ) = n := rfl

@[simp] theorem ofNat_real (n : Nat) : (ofNat n : ℝ) = n := Int.cast_natCast n

@[simp] theorem pi_real : (pi : ℝ) = Real.pi := rfl

@[simp] theorem abs_real (a : ℝ) : abs a = |a| := rfl

@[simp] theorem sqrt_real (a : ℝ) : sqrt a = √a := rfl

@[simp] theorem sqrt3_real : (sqrt3 : ℝ) = √3 := by
  unfold sqrt3
  norm_num

/-- Out of the domain of the inverse cosine, clamping changes nothing. -/
theorem acos_clamp (a : ℝ) : acos (clamp (-1) 1 a) = Real.arccos a := by
  change Real.arccos (clamp (-1) 1 a) = _
  unfold clamp
  split
  · next h => rw [Real.arccos_of_le_neg_one h.le, Real.arccos_neg_one]
  · split
    · next h => rw [Real.arccos_of_one_le h.le, Real.arccos_one]
    · rfl

theorem modulo_real (a b : ℝ) : modulo a b = a - |b| * ⌊a / |b|⌋ := rfl

/-- The remainder differs from the number by a multiple of the divisor. -/
theorem modulo_of_pos (a : ℝ) {b : ℝ} (hb : 0 < b) : modulo a b = a - ⌊a / b⌋ * b := by
  rw [modulo_real, abs_of_pos hb, mul_comm]

/-- The remainder does not see multiples of the divisor. -/
theorem modulo_add_mul (a b : ℝ) (k : Int) : modulo (a + k * b) b = modulo a b := by
  by_cases hb : b = 0
  · simp [hb]
  · -- a multiple of `b` is a multiple of `|b|`, by `k` or by `-k`
    obtain ⟨j, hj⟩ : ∃ j : Int, (k : ℝ) * b = j * |b| := by
      rcases abs_choice b with h | h
      · exact ⟨k, by rw [h]⟩
      · exact ⟨-k, by rw [h]; push_cast; ring⟩
    have hdiv : (a + j * |b|) / |b| = a / |b| + j := by
      field_simp
    rw [modulo_real, modulo_real, hj, hdiv, Int.floor_add_intCast]
    push_cast
    ring

end Scalar

end Honeycomb
