import Honeycomb.Geometry.Mat3
import Honeycomb.Proofs.Number.Real

/-!
# Vectors and matrices over the real numbers

* The vectors are a commutative group, with the sum, difference and negation of `Vec3`.
* `Mat3.shift` — an integer combination of the rows of a matrix; `Mat3.shift_injective` — rows that
  span a volume lead to different places by different combinations.
-/

set_option autoImplicit false

namespace Honeycomb

namespace Vec3

@[simp] theorem add_mk (a b c x y z : ℝ) :
    (⟨a, b, c⟩ + ⟨x, y, z⟩ : Vec3 ℝ) = ⟨a + x, b + y, c + z⟩ :=
  rfl

@[simp] theorem neg_mk (a b c : ℝ) : (-⟨a, b, c⟩ : Vec3 ℝ) = ⟨-a, -b, -c⟩ :=
  rfl

theorem sub_mk (a b c x y z : ℝ) : (⟨a, b, c⟩ - ⟨x, y, z⟩ : Vec3 ℝ) = ⟨a - x, b - y, c - z⟩ :=
  rfl

theorem mul_mk (x y z a : ℝ) : Vec3.mk x y z * a = ⟨x * a, y * a, z * a⟩ :=
  rfl

theorem zero_eq : (0 : Vec3 ℝ) = ⟨0, 0, 0⟩ :=
  rfl

noncomputable instance : AddCommGroup (Vec3 ℝ) where
  add_assoc u v w := by
    cases u; cases v; cases w
    simp [add_assoc]
  zero_add v := by
    cases v
    simp [zero_eq]
  add_zero v := by
    cases v
    simp [zero_eq]
  nsmul := nsmulRec
  zsmul := zsmulRec
  neg_add_cancel v := by
    cases v
    simp [zero_eq]
  sub_eq_add_neg u v := by
    cases u; cases v
    simp only [neg_mk, add_mk, ← sub_eq_add_neg]
    rfl
  add_comm u v := by
    cases u; cases v
    simp [add_comm]

end Vec3

namespace Mat3

/-- The integer combination of the rows. -/
noncomputable def shift (m : Mat3 ℝ) (w : Vec3 Int) : Vec3 ℝ :=
  m.row1 * (w.x : ℝ) + m.row2 * (w.y : ℝ) + m.row3 * (w.z : ℝ)

theorem shift_eq (m : Mat3 ℝ) (w : Vec3 Int) :
    m.shift w = ⟨m.row1.x * w.x + m.row2.x * w.y + m.row3.x * w.z,
      m.row1.y * w.x + m.row2.y * w.y + m.row3.y * w.z,
      m.row1.z * w.x + m.row2.z * w.y + m.row3.z * w.z⟩ := rfl

/-- Rows that span a volume lead to different places by different combinations. -/
theorem shift_injective {m : Mat3 ℝ} (hdet : m.det ≠ 0) : Function.Injective m.shift := by
  intro v w h
  simp only [shift_eq, Vec3.mk.injEq] at h
  obtain ⟨hx, hy, hz⟩ := h
  have cancel {a b : Int} (hab : m.det * ((a : ℝ) - b) = 0) : a = b := by
    have := (mul_eq_zero.1 hab).resolve_left hdet
    exact_mod_cast sub_eq_zero.1 this
  obtain ⟨a, b, c⟩ := v
  obtain ⟨a', b', c'⟩ := w
  simp only [det] at cancel
  rw [Vec3.mk.injEq]
  -- each difference is read off by Cramer's rule
  refine ⟨cancel ?_, cancel ?_, cancel ?_⟩
  · linear_combination (m.row2.y * m.row3.z - m.row3.y * m.row2.z) * hx
      + (m.row3.x * m.row2.z - m.row2.x * m.row3.z) * hy
      + (m.row2.x * m.row3.y - m.row3.x * m.row2.y) * hz
  · linear_combination (m.row3.y * m.row1.z - m.row1.y * m.row3.z) * hx
      + (m.row1.x * m.row3.z - m.row3.x * m.row1.z) * hy
      + (m.row3.x * m.row1.y - m.row1.x * m.row3.y) * hz
  · linear_combination (m.row1.y * m.row2.z - m.row2.y * m.row1.z) * hx
      + (m.row2.x * m.row1.z - m.row1.x * m.row2.z) * hy
      + (m.row1.x * m.row2.y - m.row2.x * m.row1.y) * hz

end Mat3

end Honeycomb
