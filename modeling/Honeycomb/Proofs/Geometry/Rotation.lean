import Honeycomb.Geometry.Axis
import Honeycomb.Proofs.Geometry.Vec3

/-!
# Matrices that keep lengths and angles

* `Mat3.IsOrthogonal` — the product of the transposed matrix with the matrix is the identity.
* `Mat3.isOrthogonal_iff_dot` — these are the matrices that keep inner products;
  `Mat3.IsOrthogonal.mul` — the product of two is one.
* `Mat3.isOrthogonal_axisAngle`, `Mat3.isOrthogonal_euler`, `Mat3.isOrthogonal_of_about?` — rotations
  by an axis and an angle, and by three angles, are such matrices.
* `Mat3.turnZ`, `Mat3.axisAngle_ez` — the turns about the z axis.
-/

set_option autoImplicit false

namespace Honeycomb

namespace Vec3

theorem norm_mul_norm (v : Vec3 ℝ) : v.norm * v.norm = v.x * v.x + v.y * v.y + v.z * v.z := by
  apply Real.mul_self_sqrt
  exact add_nonneg (add_nonneg (mul_self_nonneg _) (mul_self_nonneg _)) (mul_self_nonneg _)

theorem norm_eq_zero_iff {v : Vec3 ℝ} : v.norm = 0 ↔ v = 0 := by
  have hsq := v.norm_mul_norm
  obtain ⟨x, y, z⟩ := v
  constructor
  · intro h
    rw [h, zero_mul] at hsq
    have hx : x = 0 := by nlinarith [mul_self_nonneg x, mul_self_nonneg y, mul_self_nonneg z]
    have hy : y = 0 := by nlinarith [mul_self_nonneg x, mul_self_nonneg y, mul_self_nonneg z]
    have hz : z = 0 := by nlinarith [mul_self_nonneg x, mul_self_nonneg y, mul_self_nonneg z]
    rw [hx, hy, hz, zero_eq]
  · intro h
    rw [h] at hsq ⊢
    exact mul_self_eq_zero.1 (hsq.trans (by simp [zero_eq]))

/-- A vector over its length is a unit vector. -/
theorem dot_div_norm {v : Vec3 ℝ} (h : v.norm ≠ 0) : (v / v.norm).dot (v / v.norm) = 1 := by
  have hsq := v.norm_mul_norm
  generalize v.norm = r at h hsq ⊢
  change v.x / r * (v.x / r) + v.y / r * (v.y / r) + v.z / r * (v.z / r) = 1
  field_simp
  linarith

theorem sum_eq (vs : List (Vec3 ℝ)) : Vec3.sum vs = vs.sum :=
  List.sum_eq_foldl.symm

theorem mul_add_one (v : Vec3 ℝ) (a : ℝ) : v * (a + 1) = v * a + v := by
  obtain ⟨x, y, z⟩ := v
  change Vec3.mk (x * (a + 1)) (y * (a + 1)) (z * (a + 1)) = ⟨x * a + x, y * a + y, z * a + z⟩
  simp only [mul_add, mul_one]

theorem mul_mul (v : Vec3 ℝ) (a b : ℝ) : v * a * b = v * (a * b) := by
  obtain ⟨x, y, z⟩ := v
  change Vec3.mk (x * a * b) (y * a * b) (z * a * b) = ⟨x * (a * b), y * (a * b), z * (a * b)⟩
  simp only [mul_assoc]

theorem div_add_div (v w : Vec3 ℝ) (a : ℝ) : v / a + w / a = (v + w) / a := by
  obtain ⟨x, y, z⟩ := v
  obtain ⟨u, v, w⟩ := w
  change Vec3.mk (x / a + u / a) (y / a + v / a) (z / a + w / a) =
    ⟨(x + u) / a, (y + v) / a, (z + w) / a⟩
  simp only [← add_div]

theorem mul_div_cancel (v : Vec3 ℝ) {a : ℝ} (h : a ≠ 0) : v * a / a = v := by
  obtain ⟨x, y, z⟩ := v
  change Vec3.mk (x * a / a) (y * a / a) (z * a / a) = ⟨x, y, z⟩
  simp only [mul_div_cancel_right₀ _ h]

end Vec3

namespace Mat3

/-- The product of the transposed matrix with the matrix is the identity. -/
def IsOrthogonal (m : Mat3 ℝ) : Prop :=
  m.transpose.mul m = one

variable {m n : Mat3 ℝ}

/-- The columns are unit vectors at right angles. -/
theorem isOrthogonal_iff :
    m.IsOrthogonal ↔
      (m.row1.x * m.row1.x + m.row2.x * m.row2.x + m.row3.x * m.row3.x = 1 ∧
        m.row1.y * m.row1.y + m.row2.y * m.row2.y + m.row3.y * m.row3.y = 1 ∧
        m.row1.z * m.row1.z + m.row2.z * m.row2.z + m.row3.z * m.row3.z = 1) ∧
      m.row1.x * m.row1.y + m.row2.x * m.row2.y + m.row3.x * m.row3.y = 0 ∧
        m.row1.x * m.row1.z + m.row2.x * m.row2.z + m.row3.x * m.row3.z = 0 ∧
        m.row1.y * m.row1.z + m.row2.y * m.row2.z + m.row3.y * m.row3.z = 0 := by
  simp only [IsOrthogonal, mul, transpose, mulVec, Vec3.dot, one, Vec3.ex, Vec3.ey, Vec3.ez,
    Mat3.mk.injEq, Vec3.mk.injEq]
  grind

theorem isOrthogonal_axisAngle {axis : Vec3 ℝ} (h : axis.dot axis = 1) (angle : ℝ) :
    (axisAngle axis angle).IsOrthogonal := by
  obtain ⟨x, y, z⟩ := axis
  have hunit : x * x + y * y + z * z = 1 := h
  have hangle : Real.sin angle * Real.sin angle + Real.cos angle * Real.cos angle = 1 := by
    have := Real.sin_sq_add_cos_sq angle
    linarith
  rw [isOrthogonal_iff]
  unfold axisAngle
  split
  · simp [one, Vec3.ex, Vec3.ey, Vec3.ez]
  · dsimp only [Scalar.sin, Scalar.cos]
    generalize Real.sin angle = s, Real.cos angle = c at hangle
    -- polynomial identities modulo the two equations
    refine ⟨⟨?_, ?_, ?_⟩, ?_, ?_, ?_⟩ <;> grind

/-- The turn by an angle about the z axis. -/
noncomputable def turnZ (angle : ℝ) : Mat3 ℝ :=
  ⟨⟨Real.cos angle, -Real.sin angle, 0⟩, ⟨Real.sin angle, Real.cos angle, 0⟩, ⟨0, 0, 1⟩⟩

theorem turnZ_zero : turnZ 0 = one := by
  simp [turnZ, one, Vec3.ex, Vec3.ey, Vec3.ez]

theorem axisAngle_ez (angle : ℝ) : axisAngle Vec3.ez angle = turnZ angle := by
  by_cases h : angle = 0
  · simp [axisAngle, h, turnZ_zero]
  · simp [axisAngle, h, turnZ, Vec3.ez, Scalar.sin, Scalar.cos]

theorem isOrthogonal_turnZ (angle : ℝ) : (turnZ angle).IsOrthogonal := by
  rw [← axisAngle_ez]
  exact isOrthogonal_axisAngle (by simp [Vec3.dot, Vec3.ez]) angle

theorem isOrthogonal_euler (roll pitch yaw : ℝ) : (euler roll pitch yaw).IsOrthogonal := by
  have circle (a : ℝ) : Real.sin a * Real.sin a + Real.cos a * Real.cos a = 1 := by
    have := Real.sin_sq_add_cos_sq a
    linarith
  have hroll := circle roll
  have hpitch := circle pitch
  have hyaw := circle yaw
  rw [isOrthogonal_iff]
  dsimp only [euler, Scalar.sin, Scalar.cos]
  generalize Real.sin roll = sr, Real.cos roll = cr, Real.sin pitch = sp, Real.cos pitch = cp,
    Real.sin yaw = sy, Real.cos yaw = cy at *
  refine ⟨⟨?_, ?_, ?_⟩, ?_, ?_, ?_⟩ <;> grind

theorem isOrthogonal_one : (one : Mat3 ℝ).IsOrthogonal := by
  rw [isOrthogonal_iff]
  simp [one, Vec3.ex, Vec3.ey, Vec3.ez]

theorem isOrthogonal_of_about? {axis : Vec3 ℝ} {angle : ℝ} (h : about? axis angle = .ok m) :
    m.IsOrthogonal := by
  unfold about? at h
  split at h
  · cases h
  · rename_i hnorm
    obtain rfl := Except.ok.inj h
    exact isOrthogonal_axisAngle (Vec3.dot_div_norm (by simpa using hnorm)) angle

/-- The zero vector is refused, and no other. -/
theorem about?_eq_error_iff {axis : Vec3 ℝ} {angle : ℝ} :
    (∃ e, about? axis angle = .error e) ↔ axis = 0 := by
  rw [← Vec3.norm_eq_zero_iff]
  unfold about?
  by_cases h : axis.norm = 0
  · simp [h]
  · simp [h]

/-! ## Images of vectors -/

theorem mulVec_add (m : Mat3 ℝ) (v w : Vec3 ℝ) : m.mulVec (v + w) = m.mulVec v + m.mulVec w := by
  obtain ⟨a, b, c⟩ := v
  obtain ⟨x, y, z⟩ := w
  simp only [mulVec, Vec3.dot, Vec3.add_mk, Vec3.mk.injEq]
  refine ⟨?_, ?_, ?_⟩ <;> ring

theorem mulVec_sub (m : Mat3 ℝ) (v w : Vec3 ℝ) : m.mulVec (v - w) = m.mulVec v - m.mulVec w :=
  map_sub (AddMonoidHom.mk' m.mulVec m.mulVec_add) v w

theorem mulVec_div (m : Mat3 ℝ) (v : Vec3 ℝ) (a : ℝ) : m.mulVec (v / a) = m.mulVec v / a := by
  obtain ⟨x, y, z⟩ := v
  change m.mulVec ⟨x / a, y / a, z / a⟩ = _
  simp only [mulVec, Vec3.dot]
  change _ = Vec3.mk _ _ _
  simp only [Vec3.mk.injEq]
  refine ⟨?_, ?_, ?_⟩ <;> ring

theorem mulVec_mul (m n : Mat3 ℝ) (v : Vec3 ℝ) : (m.mul n).mulVec v = m.mulVec (n.mulVec v) := by
  simp only [mul, mulVec, transpose, Vec3.dot, Vec3.mk.injEq]
  refine ⟨?_, ?_, ?_⟩ <;> ring

theorem one_mulVec (v : Vec3 ℝ) : one.mulVec v = v := by
  simp [one, mulVec, Vec3.dot, Vec3.ex, Vec3.ey, Vec3.ez]

/-- **A matrix is orthogonal just when it keeps inner products.** -/
theorem isOrthogonal_iff_dot :
    m.IsOrthogonal ↔ ∀ v w, (m.mulVec v).dot (m.mulVec w) = v.dot w := by
  constructor
  · intro h v w
    rw [isOrthogonal_iff] at h
    obtain ⟨⟨hx, hy, hz⟩, hxy, hxz, hyz⟩ := h
    simp only [mulVec, Vec3.dot]
    linear_combination (v.x * w.x) * hx + (v.y * w.y) * hy + (v.z * w.z) * hz
      + (v.x * w.y + v.y * w.x) * hxy + (v.x * w.z + v.z * w.x) * hxz
      + (v.y * w.z + v.z * w.y) * hyz
  · intro h
    -- the columns are the images of the unit vectors
    simp only [mulVec, Vec3.dot] at h
    rw [isOrthogonal_iff]
    refine ⟨⟨?_, ?_, ?_⟩, ?_, ?_, ?_⟩
    · simpa [Vec3.ex] using h Vec3.ex Vec3.ex
    · simpa [Vec3.ey] using h Vec3.ey Vec3.ey
    · simpa [Vec3.ez] using h Vec3.ez Vec3.ez
    · simpa [Vec3.ex, Vec3.ey] using h Vec3.ex Vec3.ey
    · simpa [Vec3.ex, Vec3.ez] using h Vec3.ex Vec3.ez
    · simpa [Vec3.ey, Vec3.ez] using h Vec3.ey Vec3.ez

theorem IsOrthogonal.norm_mulVec (h : m.IsOrthogonal) (v : Vec3 ℝ) :
    (m.mulVec v).norm = v.norm := by
  rw [Vec3.norm, Vec3.normSq, isOrthogonal_iff_dot.1 h]
  rfl

/-- The product of two such matrices is one. -/
theorem IsOrthogonal.mul (hm : m.IsOrthogonal) (hn : n.IsOrthogonal) : (m.mul n).IsOrthogonal := by
  rw [isOrthogonal_iff_dot] at *
  intro v w
  rw [mulVec_mul, mulVec_mul, hm, hn]

end Mat3

end Honeycomb
