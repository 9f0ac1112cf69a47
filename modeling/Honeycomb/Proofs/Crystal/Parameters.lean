import Mathlib
import Honeycomb.Crystal.Lattice
import Honeycomb.Proofs.Geometry.Rotation

/-!
# Lattices from lengths and angles

A lattice that is made from the lengths of its vectors and the angles between them has these lengths
and angles, in exact arithmetic.

* `Lattice.cosine`, `Lattice.sine` — of angles in degrees.
* `Lattice.parameterRows` — the three vectors; `Lattice.heightSq` — the square of how far the third
  one rises above the plane of the others.
* `Lattice.ofParameters_eq_ok_iff` — which parameters are accepted, and what is made of them;
  `Lattice.exists_ofParameters_eq_ok_iff` — when this is a lattice.
* `Lattice.HasShape` — vectors with given lengths and angles; `Lattice.HasParameters` — a lattice
  of such vectors that lie in a fixed way.

Principal result: `Lattice.parameters_are_recovered`.
-/

set_option autoImplicit false

namespace Honeycomb

namespace Scalar

theorem radians_degrees (a : ℝ) : radians (degrees a) = a := by
  have hpi := Real.pi_ne_zero
  unfold radians degrees
  norm_num
  field_simp

end Scalar

namespace Vec3

variable {v w : Vec3 ℝ}

theorem norm_eq_of_dot_self {r : ℝ} (hr : 0 ≤ r) (h : v.dot v = r * r) : v.norm = r := by
  rw [norm, normSq, h]
  exact Real.sqrt_mul_self hr

/-- The angle between two vectors has the cosine that their inner product tells. -/
theorem cos_angle {t : ℝ} (hv : 0 < v.norm) (hw : 0 < w.norm)
    (h : v.dot w = v.norm * w.norm * Real.cos t) : Real.cos (v.angle w) = Real.cos t := by
  have hquotient : v.dot w / (v.norm * w.norm) = Real.cos t := by
    rw [h, mul_div_cancel_left₀ _ (mul_pos hv hw).ne']
  rw [angle, if_neg (by simp [hv.ne', hw.ne']), angleOf, Scalar.acos_clamp, hquotient,
    Real.cos_arccos (Real.neg_one_le_cos t) (Real.cos_le_one t)]

end Vec3

namespace Lattice

section Vectors

variable {α : Type} [Scalar α]

/-- The cosine of an angle in degrees. -/
def cosine (degrees : α) : α :=
  Scalar.cos (Scalar.radians degrees)

/-- The sine of an angle in degrees. -/
def sine (degrees : α) : α :=
  Scalar.sin (Scalar.radians degrees)

variable (a b c alpha beta gamma : α)

/-- How far the third vector leads along y. -/
def reach : α :=
  c * (cosine alpha - cosine beta * cosine gamma) / sine gamma

/-- The square of how far the third vector leads along z. -/
def heightSq : α :=
  c * c - c * cosine beta * (c * cosine beta) - reach c alpha beta gamma * reach c alpha beta gamma

/-- The vectors with given lengths and angles. -/
def parameterRows : Mat3 α :=
  ⟨⟨a, 0, 0⟩, ⟨b * cosine gamma, b * sine gamma, 0⟩,
    ⟨c * cosine beta, reach c alpha beta gamma, Scalar.sqrt (heightSq c alpha beta gamma)⟩⟩

/-- The lattice is made of these vectors, unless the parameters are refused first. -/
theorem ofParameters_eq : ofParameters a b c alpha beta gamma =
    if !isLength a then .error (.parameter (.latticeLength "a" a))
    else if !isLength b then .error (.parameter (.latticeLength "b" b))
    else if !isLength c then .error (.parameter (.latticeLength "c" c))
    else if Scalar.abs (sine gamma) < 1e-12 then .error (.parameter (.degenerateAngle gamma))
    else if heightSq c alpha beta gamma ≤ 0 then .error (.parameter (.flatAngles alpha beta gamma))
    else ofMatrix (parameterRows a b c alpha beta gamma) :=
  rfl

end Vectors

variable {a b c alpha beta gamma : ℝ} {l : Lattice ℝ}

theorem isLength_iff (a : ℝ) : isLength a = true ↔ 0 < a := by
  simp [isLength, Scalar.isFinite]

/-- **Which parameters are accepted, and what is made of them.** -/
theorem ofParameters_eq_ok_iff : ofParameters a b c alpha beta gamma = .ok l ↔
    (0 < a ∧ 0 < b ∧ 0 < c) ∧ ¬|sine gamma| < 1e-12 ∧ ¬heightSq c alpha beta gamma ≤ 0 ∧
      l.matrix = parameterRows a b c alpha beta gamma := by
  rw [← isLength_iff a, ← isLength_iff b, ← isLength_iff c, ← ofMatrix_eq_ok_iff, ofParameters_eq,
    Scalar.abs_real]
  split
  · next h => simp_all
  split
  · next h => simp_all
  split
  · next h => simp_all
  split
  · next h => simp [h]
  split
  · next h => simp [h]
  · simp_all

theorem sine_mul_sine_add (degrees : ℝ) :
    sine degrees * sine degrees + cosine degrees * cosine degrees = 1 := by
  have h := Real.sin_sq_add_cos_sq (Scalar.radians degrees)
  change Real.sin _ * Real.sin _ + Real.cos _ * Real.cos _ = 1
  linarith

theorem cosine_angle {v w : Vec3 ℝ} {r s t : ℝ} (hr : 0 < r) (hs : 0 < s) (hv : v.norm = r)
    (hw : w.norm = s) (h : v.dot w = r * s * cosine t) :
    cosine (Scalar.degrees (v.angle w)) = cosine t := by
  subst hv hw
  change Real.cos (Scalar.radians _) = _
  rw [Scalar.radians_degrees, Vec3.cos_angle hr hs h]
  rfl

/-! ## Products of the vectors -/

theorem row1_dot_row1 : (parameterRows a b c alpha beta gamma).row1.dot
    (parameterRows a b c alpha beta gamma).row1 = a * a := by
  simp [parameterRows, Vec3.dot]

theorem row2_dot_row2 : (parameterRows a b c alpha beta gamma).row2.dot
    (parameterRows a b c alpha beta gamma).row2 = b * b := by
  simp only [parameterRows, Vec3.dot]
  linear_combination b * b * sine_mul_sine_add gamma

theorem row3_dot_row3 (hheight : 0 ≤ heightSq c alpha beta gamma) :
    (parameterRows a b c alpha beta gamma).row3.dot
      (parameterRows a b c alpha beta gamma).row3 = c * c := by
  have hroot := Real.mul_self_sqrt hheight
  simp only [parameterRows, Vec3.dot, Scalar.sqrt_real, hroot]
  unfold heightSq
  ring

theorem row1_dot_row2 : (parameterRows a b c alpha beta gamma).row1.dot
    (parameterRows a b c alpha beta gamma).row2 = a * b * cosine gamma := by
  simp [parameterRows, Vec3.dot, mul_assoc]

theorem row1_dot_row3 : (parameterRows a b c alpha beta gamma).row1.dot
    (parameterRows a b c alpha beta gamma).row3 = a * c * cosine beta := by
  simp [parameterRows, Vec3.dot, mul_assoc]

/-- The third vector leads along y as far as its angle with the second one requires. -/
theorem row2_dot_row3 (hsine : sine gamma ≠ 0) : (parameterRows a b c alpha beta gamma).row2.dot
    (parameterRows a b c alpha beta gamma).row3 = b * c * cosine alpha := by
  simp only [parameterRows, Vec3.dot, reach]
  field_simp
  ring

theorem det_parameterRows : (parameterRows a b c alpha beta gamma).det =
    a * b * sine gamma * √(heightSq c alpha beta gamma) := by
  simp only [parameterRows, Mat3.det, Scalar.sqrt_real]
  ring

/-- Parameters make a lattice unless a length is not positive, or one of three quantities is too
small: the sine of the last angle, the height of the third vector, the volume. -/
theorem exists_ofParameters_eq_ok_iff : (∃ l, ofParameters a b c alpha beta gamma = .ok l) ↔
    (0 < a ∧ 0 < b ∧ 0 < c) ∧ ¬|sine gamma| < 1e-12 ∧ ¬heightSq c alpha beta gamma ≤ 0 ∧
      ¬|a * b * sine gamma * √(heightSq c alpha beta gamma)| < 1e-12 := by
  simp only [ofParameters_eq_ok_iff, exists_and_left, ← det_parameterRows]
  constructor
  · rintro ⟨hlengths, hsine, hheight, l, hmatrix⟩
    exact ⟨hlengths, hsine, hheight, hmatrix ▸ l.spans⟩
  · rintro ⟨hlengths, hsine, hheight, hspans⟩
    exact ⟨hlengths, hsine, hheight, ⟨parameterRows a b c alpha beta gamma, hspans⟩, rfl⟩

/-! ## The lattice -/

/-- **Vectors with given lengths and angles between them.** -/
structure HasShape (m : Mat3 ℝ) (a b c alpha beta gamma : ℝ) : Prop where
  norm1 : m.row1.norm = a
  norm2 : m.row2.norm = b
  norm3 : m.row3.norm = c
  dot23 : m.row2.dot m.row3 = b * c * cosine alpha
  dot13 : m.row1.dot m.row3 = a * c * cosine beta
  dot12 : m.row1.dot m.row2 = a * b * cosine gamma

theorem hasShape_parameterRows (ha : 0 ≤ a) (hb : 0 ≤ b) (hc : 0 ≤ c) (hsine : sine gamma ≠ 0)
    (hheight : 0 ≤ heightSq c alpha beta gamma) :
    HasShape (parameterRows a b c alpha beta gamma) a b c alpha beta gamma where
  norm1 := Vec3.norm_eq_of_dot_self ha row1_dot_row1
  norm2 := Vec3.norm_eq_of_dot_self hb row2_dot_row2
  norm3 := Vec3.norm_eq_of_dot_self hc (row3_dot_row3 hheight)
  dot23 := row2_dot_row3 hsine
  dot13 := row1_dot_row3
  dot12 := row1_dot_row2

theorem HasShape.lengths (h : HasShape l.matrix a b c alpha beta gamma) :
    l.lengths = ⟨a, b, c⟩ := by
  rw [Lattice.lengths, h.norm1, h.norm2, h.norm3]

theorem HasShape.angles (h : HasShape l.matrix a b c alpha beta gamma) (ha : 0 < a) (hb : 0 < b)
    (hc : 0 < c) : l.angles.map cosine = ⟨cosine alpha, cosine beta, cosine gamma⟩ := by
  change Vec3.mk (cosine (Scalar.degrees _)) (cosine (Scalar.degrees _))
    (cosine (Scalar.degrees _)) = _
  rw [cosine_angle hb hc h.norm2 h.norm3 h.dot23, cosine_angle ha hc h.norm1 h.norm3 h.dot13,
    cosine_angle ha hb h.norm1 h.norm2 h.dot12]

/-- **A lattice with given lengths and angles.** Its first vector lies along x, the second one in
the plane of x and y, and the third one above it. -/
structure HasParameters (l : Lattice ℝ) (a b c alpha beta gamma : ℝ) : Prop extends
    HasShape l.matrix a b c alpha beta gamma where
  lengths : l.lengths = ⟨a, b, c⟩
  angles : l.angles.map cosine = ⟨cosine alpha, cosine beta, cosine gamma⟩
  alongX : l.matrix.row1 = ⟨a, 0, 0⟩
  inPlane : l.matrix.row2.z = 0
  upward : 0 < l.matrix.row3.z
  volume : l.volume = a * b * |sine gamma| * l.matrix.row3.z

/-- **The parameters of a lattice are recovered**, for every cell that they make. -/
theorem parameters_are_recovered (h : ofParameters a b c alpha beta gamma = .ok l) :
    l.HasParameters a b c alpha beta gamma := by
  obtain ⟨⟨ha, hb, hc⟩, hsine, hheight, hmatrix⟩ := ofParameters_eq_ok_iff.1 h
  rw [not_le] at hheight
  have hsine' : sine gamma ≠ 0 := by
    intro hzero
    exact hsine (by rw [hzero]; norm_num)
  have hshape : HasShape l.matrix a b c alpha beta gamma := by
    rw [hmatrix]
    exact hasShape_parameterRows ha.le hb.le hc.le hsine' hheight.le
  exact {
    hshape with
    lengths := hshape.lengths
    angles := hshape.angles ha hb hc
    alongX := by rw [hmatrix]; rfl
    inPlane := by rw [hmatrix]; rfl
    upward := by rw [hmatrix]; exact Real.sqrt_pos.2 hheight
    volume := by
      rw [Lattice.volume, hmatrix, det_parameterRows, Scalar.abs_real, abs_mul, abs_mul,
        abs_of_pos (mul_pos ha hb), abs_of_nonneg (Real.sqrt_nonneg _)]
      rfl
  }

/-- An oblique cell. -/
theorem parameters_are_recovered_oblique : ∃ l : Lattice ℝ,
    ofParameters 2 3 4 60 90 120 = .ok l ∧ l.HasParameters 2 3 4 60 90 120 := by
  have halpha : cosine (60 : ℝ) = 1 / 2 := by
    rw [← Real.cos_pi_div_three]
    change Real.cos (60 * (Real.pi / 180.0)) = _
    congr 1
    norm_num
    ring
  have hbeta : cosine (90 : ℝ) = 0 := by
    rw [← Real.cos_pi_div_two]
    change Real.cos (90 * (Real.pi / 180.0)) = _
    congr 1
    norm_num
    ring
  have hradians : Scalar.radians (120 : ℝ) = Real.pi - Real.pi / 3 := by
    norm_num [Scalar.radians]
    ring
  have hcosine : cosine (120 : ℝ) = -(1 / 2) := by
    change Real.cos (Scalar.radians 120) = _
    rw [hradians, Real.cos_pi_sub, Real.cos_pi_div_three]
  have hsine : sine (120 : ℝ) = √3 / 2 := by
    change Real.sin (Scalar.radians 120) = _
    rw [hradians, Real.sin_pi_sub, Real.sin_pi_div_three]
  have hheight : heightSq (4 : ℝ) 60 90 120 = 32 / 3 := by
    have hthree : √3 * √3 = (3 : ℝ) := Real.mul_self_sqrt (by norm_num)
    have hreach : reach (4 : ℝ) 60 90 120 = 4 / √3 := by
      rw [reach, halpha, hbeta, hcosine, hsine]
      field_simp
      norm_num
    rw [heightSq, hbeta, hreach, div_mul_div_comm, hthree]
    norm_num
  have htiny : (1e-12 : ℝ) ≤ 1 / 2 := by norm_num
  have hthree : (1 : ℝ) ≤ √3 := Real.one_le_sqrt.2 (by norm_num)
  have hroot : (1 : ℝ) ≤ √(32 / 3) := Real.one_le_sqrt.2 (by norm_num)
  have hvolume : (1 : ℝ) ≤ 2 * 3 * (√3 / 2) * √(32 / 3) := by nlinarith
  have hlattice : ∃ l, ofParameters (2 : ℝ) 3 4 60 90 120 = .ok l := by
    rw [exists_ofParameters_eq_ok_iff, hsine, hheight, abs_of_pos (by positivity),
      abs_of_pos (by positivity)]
    refine ⟨by norm_num, not_lt.2 ?_, by norm_num, not_lt.2 ?_⟩
    · linarith
    · linarith
  obtain ⟨l, hl⟩ := hlattice
  exact ⟨l, hl, parameters_are_recovered hl⟩

end Lattice

end Honeycomb
