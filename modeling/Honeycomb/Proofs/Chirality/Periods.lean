import Mathlib
import Honeycomb.Proofs.Chirality.Screw

/-!
# The periods of a tube in the plane

A sheet of graphene repeats on two vectors `a1` and `a2` of one length at an angle of 60 degrees. A
tube has the periods `n a1 + m a2` around and `t1 a1 + t2 a2` along it. Everything here is exact
arithmetic.

* `hexForm` — the square of the length of `x a1 + y a2`, with the length of `a1` for unit.
* `Chirality.cos_chiralAngle`, `Chirality.sin_chiralAngle` — the chiral angle without an arc
  tangent.
* `Chirality.coordinates` — how far around and how far along the tube `x a1 + y a2` leads, with the
  lengths that the tube is built from; `coordinates_symmetryVector` and `coordinates_third` — the
  screw and the way to the second atom of a hexagon in these coordinates.
* `IsHexagonal` — the vectors themselves; `Chirality.components` — the components of a vector along
  the two periods.

Principal results: `inner_chiralVector_axialVector`, `norm_chiralVector`, `norm_axialVector` — the
periods are perpendicular and have the lengths of the tube; `components_combine` — components are
coordinates.
-/

set_option autoImplicit false

namespace Honeycomb

/-- The square of the length of `x a1 + y a2`, with the common length of `a1` and `a2` for unit. -/
def hexForm (x y : ℝ) : ℝ :=
  x * x + y * y + x * y

namespace Chirality

variable (c : Chirality)

/-! ## Whole numbers as real numbers -/

theorem hexForm_pos : 0 < hexForm c.n c.m := by
  have h : 0 < c.n * c.n + c.m * c.m + c.n * c.m := by
    rcases c.nonzero with h | h <;> positivity
  unfold hexForm
  exact_mod_cast h

theorem dR_real_pos : (0 : ℝ) < c.dR := by
  exact_mod_cast c.dR_pos

theorem t1_real : (c.t1 : ℝ) = (2 * c.m + c.n) / c.dR := by
  rw [eq_div_iff c.dR_real_pos.ne']
  exact_mod_cast c.t1_mul_dR

theorem t2_real : (c.t2 : ℝ) = -(2 * c.n + c.m) / c.dR := by
  rw [eq_div_iff c.dR_real_pos.ne']
  exact_mod_cast c.t2_mul_dR

theorem hexagons_real : (c.hexagons : ℝ) = 2 * hexForm c.n c.m / c.dR := by
  rw [eq_div_iff c.dR_real_pos.ne']
  unfold hexForm
  exact_mod_cast c.hexagons_mul_dR

/-! ## Lengths and the chiral angle -/

theorem circumference_real (bond : ℝ) :
    c.circumference bond = √3 * bond * √(hexForm c.n c.m) := by
  unfold circumference hexForm
  simp only [Scalar.sqrt3_real, Scalar.sqrt_real, Scalar.ofNat_real]

theorem axialPeriod_real (bond : ℝ) :
    c.axialPeriod bond = √3 * c.circumference bond / c.dR := by
  unfold axialPeriod
  rw [Scalar.sqrt3_real, Scalar.ofInt_real]

theorem axialPeriod_pos {bond : ℝ} (hbond : 0 < bond) : 0 < c.axialPeriod bond := by
  have := c.circumference_pos hbond
  have := c.dR_real_pos
  rw [axialPeriod_real]
  positivity

theorem circumference_sq (bond : ℝ) :
    c.circumference bond ^ 2 = 3 * bond ^ 2 * hexForm c.n c.m := by
  rw [circumference_real, mul_pow, mul_pow, Real.sq_sqrt c.hexForm_pos.le,
    Real.sq_sqrt (by norm_num)]

theorem axialPeriod_sq (bond : ℝ) :
    c.axialPeriod bond ^ 2 = 9 * bond ^ 2 * hexForm c.n c.m / c.dR ^ 2 := by
  rw [axialPeriod_real, div_pow, mul_pow, circumference_sq, Real.sq_sqrt (by norm_num)]
  ring

theorem armchairAngle_real : (armchairAngle : ℝ) = Real.pi / 6 := by
  unfold armchairAngle
  rw [Scalar.sqrt3_real, one_div]
  exact Real.arctan_inv_sqrt_three

theorem chiralAngle_real :
    (c.chiralAngle : ℝ) = Real.arctan (√3 * c.m / (2 * c.n + c.m)) := by
  unfold chiralAngle
  simp only [Scalar.sqrt3_real, Scalar.ofNat_real]
  norm_num
  rfl

/-- The side `2n + m` of the right triangle with the chiral angle is not zero. -/
theorem adjacent_pos : (0 : ℝ) < 2 * c.n + c.m := by
  have h : 0 < 2 * c.n + c.m := by
    rcases c.nonzero with h | h <;> omega
  exact_mod_cast h

/-- The hypotenuse of that triangle. -/
theorem sqrt_one_add_sq :
    √(1 + (√3 * c.m / (2 * c.n + c.m)) ^ 2) = 2 * √(hexForm c.n c.m) / (2 * c.n + c.m) := by
  have hadj := c.adjacent_pos
  have hsq : 1 + (√3 * c.m / (2 * c.n + c.m)) ^ 2 =
      (2 * √(hexForm c.n c.m) / (2 * c.n + c.m)) ^ 2 := by
    rw [div_pow, div_pow, mul_pow, mul_pow, Real.sq_sqrt c.hexForm_pos.le,
      Real.sq_sqrt (by norm_num)]
    unfold hexForm
    field_simp
    ring
  rw [hsq, Real.sqrt_sq (by positivity)]

theorem cos_chiralAngle :
    Real.cos c.chiralAngle = (2 * c.n + c.m) / (2 * √(hexForm c.n c.m)) := by
  rw [chiralAngle_real, Real.cos_arctan, sqrt_one_add_sq, one_div_div]

theorem sin_chiralAngle :
    Real.sin c.chiralAngle = √3 * c.m / (2 * √(hexForm c.n c.m)) := by
  have := c.adjacent_pos
  have := Real.sqrt_pos.2 c.hexForm_pos
  rw [chiralAngle_real, Real.sin_arctan, sqrt_one_add_sq]
  field_simp

/-! ## Coordinates around and along the tube -/

/-- **How far around and how far along a tube** `x a1 + y a2` leads. -/
noncomputable def coordinates (bond x y : ℝ) : ℝ × ℝ :=
  ((c.t1 * y - c.t2 * x) / c.hexagons * c.circumference bond,
    (c.m * x - c.n * y) / c.hexagons * c.axialPeriod bond)

theorem coordinates_add (bond x y x' y' : ℝ) :
    c.coordinates bond (x + x') (y + y') = c.coordinates bond x y + c.coordinates bond x' y' := by
  unfold coordinates
  ext
  · dsimp only [Prod.fst_add]
    ring
  · dsimp only [Prod.snd_add]
    ring

theorem coordinates_smul (bond k x y : ℝ) :
    c.coordinates bond (k * x) (k * y) = k • c.coordinates bond x y := by
  unfold coordinates
  ext
  · dsimp only [Prod.smul_fst, smul_eq_mul]
    ring
  · dsimp only [Prod.smul_snd, smul_eq_mul]
    ring

/-- Once around the tube. -/
theorem coordinates_chiral (bond : ℝ) :
    c.coordinates bond c.n c.m = (c.circumference bond, 0) := by
  have hN := c.hexagons_real_pos
  have hdet : (c.t1 * c.m - c.t2 * c.n : ℝ) = c.hexagons := by
    rw [c.hexagons_eq]
    push_cast
    ring
  unfold coordinates
  rw [hdet, div_self hN.ne', one_mul, mul_comm (c.m : ℝ), sub_self, zero_div, zero_mul]

/-- One period along the tube. -/
theorem coordinates_axial (bond : ℝ) :
    c.coordinates bond c.t1 c.t2 = (0, c.axialPeriod bond) := by
  have hN := c.hexagons_real_pos
  have hdet : (c.m * c.t1 - c.n * c.t2 : ℝ) = c.hexagons := by
    rw [c.hexagons_eq]
    push_cast
    ring
  unfold coordinates
  rw [hdet, div_self hN.ne', one_mul, mul_comm (c.t1 : ℝ), sub_self, zero_div, zero_mul]

/-- The symmetry vector leads one turn of the screw around and along the tube. -/
theorem coordinates_symmetryVector (bond : ℝ) :
    c.coordinates bond c.symmetryVector.1 c.symmetryVector.2 =
      (c.radius bond * c.psi, c.tau bond) := by
  have hN := c.hexagons_real_pos
  have hsol : (c.t1 * c.symmetryVector.2 - c.t2 * c.symmetryVector.1 : ℝ) = 1 := by
    exact_mod_cast c.symmetryVector_spec.1
  have hpitch : (c.m * c.symmetryVector.1 - c.n * c.symmetryVector.2 : ℝ) = c.screwPitch := by
    unfold screwPitch
    push_cast
    rfl
  have hcirc : c.radius bond * (c.hexagons * c.psi) = c.circumference bond := by
    rw [hexagons_mul_psi, radius_mul_two_pi]
  have htau := c.hexagons_mul_tau bond
  unfold coordinates
  rw [hsol, hpitch]
  ext
  · dsimp only
    rw [← hcirc]
    field_simp
  · dsimp only
    rw [div_mul_eq_mul_div, ← htau]
    field_simp

/-- A third of `a1 + a2` leads from the first to the second atom of a hexagon. -/
theorem coordinates_third {bond : ℝ} (hbond : 0 < bond) :
    c.coordinates bond (1 / 3) (1 / 3) = (c.radius bond * c.dpsi bond, -c.dtau bond) := by
  have hd := c.dR_real_pos
  have hradius := c.radius_pos hbond
  have hroot := Real.sqrt_pos.2 c.hexForm_pos
  have hform : hexForm c.n c.m = √(hexForm c.n c.m) ^ 2 := (Real.sq_sqrt c.hexForm_pos.le).symm
  have hthree : √3 ^ 2 = (3 : ℝ) := Real.sq_sqrt (by norm_num)
  have hcos : Real.cos (Real.pi / 6 - c.chiralAngle) =
      √3 * (c.n + c.m) / (2 * √(hexForm c.n c.m)) := by
    rw [Real.cos_sub, Real.cos_pi_div_six, Real.sin_pi_div_six, cos_chiralAngle, sin_chiralAngle]
    field_simp
    ring
  have hsin : Real.sin (Real.pi / 6 - c.chiralAngle) =
      (c.n - c.m) / (2 * √(hexForm c.n c.m)) := by
    rw [Real.sin_sub, Real.cos_pi_div_six, Real.sin_pi_div_six, cos_chiralAngle, sin_chiralAngle]
    field_simp
    linear_combination -(c.m : ℝ) * hthree
  have hdpsi : c.radius bond * c.dpsi bond = bond * Real.cos (Real.pi / 6 - c.chiralAngle) := by
    unfold dpsi
    rw [armchairAngle_real]
    field_simp
    rfl
  have hdtau : c.dtau bond = bond * Real.sin (Real.pi / 6 - c.chiralAngle) := by
    unfold dtau
    rw [armchairAngle_real]
    rfl
  rw [hdpsi, hdtau, hcos, hsin]
  unfold coordinates
  rw [t1_real, t2_real, hexagons_real, axialPeriod_real, circumference_real]
  generalize √(hexForm c.n c.m) = root at hroot hform
  rw [hform]
  ext
  · dsimp only
    field_simp
    ring
  · dsimp only
    field_simp
    linear_combination (c.m - c.n : ℝ) * hthree

/-- **Coordinates keep lengths.** -/
theorem coordinates_sq (bond x y : ℝ) :
    (c.coordinates bond x y).1 ^ 2 + (c.coordinates bond x y).2 ^ 2 =
      3 * bond ^ 2 * hexForm x y := by
  have hd := c.dR_real_pos
  have hS := c.hexForm_pos
  unfold coordinates
  dsimp only
  rw [mul_pow, mul_pow, circumference_sq, axialPeriod_sq, t1_real, t2_real, hexagons_real]
  have hsquare : ((2 * c.m + c.n) * y + (2 * c.n + c.m) * x) ^ 2 + 3 * (c.m * x - c.n * y) ^ 2 =
      4 * hexForm c.n c.m * hexForm x y := by
    unfold hexForm
    ring
  generalize hexForm c.n c.m = S at hS hsquare
  field_simp
  linear_combination bond ^ 2 * 3 * hsquare

end Chirality

/-! ## Vectors -/

section Vectors

variable {V : Type*} [NormedAddCommGroup V] [InnerProductSpace ℝ V]

/-- **The periods of graphene**: two vectors of the length of `√3` bonds, at 60 degrees. -/
structure IsHexagonal (bond : ℝ) (a1 a2 : V) : Prop where
  norm_left : ‖a1‖ = √3 * bond
  norm_right : ‖a2‖ = √3 * bond
  angle_eq : InnerProductGeometry.angle a1 a2 = Real.pi / 3

variable {bond : ℝ} {a1 a2 : V}

/-- The inner product of two combinations of the periods. -/
theorem IsHexagonal.inner_combine (h : IsHexagonal bond a1 a2) (x y x' y' : ℝ) :
    inner ℝ (x • a1 + y • a2) (x' • a1 + y' • a2) =
      3 / 2 * bond ^ 2 * (2 * x * x' + 2 * y * y' + x * y' + y * x') := by
  have hthree : √3 ^ 2 = (3 : ℝ) := Real.sq_sqrt (by norm_num)
  have hleft : inner ℝ a1 a1 = 3 * bond ^ 2 := by
    rw [real_inner_self_eq_norm_sq, h.norm_left, mul_pow, hthree]
  have hright : inner ℝ a2 a2 = 3 * bond ^ 2 := by
    rw [real_inner_self_eq_norm_sq, h.norm_right, mul_pow, hthree]
  have hcross : inner ℝ a1 a2 = 3 / 2 * bond ^ 2 := by
    rw [← InnerProductGeometry.cos_angle_mul_norm_mul_norm, h.angle_eq, h.norm_left, h.norm_right,
      Real.cos_pi_div_three]
    linear_combination bond ^ 2 / 2 * hthree
  simp only [inner_add_left, inner_add_right, real_inner_smul_left, real_inner_smul_right,
    real_inner_comm a1 a2, hleft, hright, hcross]
  ring

/-- The square of the length of a combination of the periods. -/
theorem IsHexagonal.norm_sq_combine (h : IsHexagonal bond a1 a2) (x y : ℝ) :
    ‖x • a1 + y • a2‖ ^ 2 = 3 * bond ^ 2 * hexForm x y := by
  rw [← real_inner_self_eq_norm_sq, h.inner_combine]
  unfold hexForm
  ring

namespace Chirality

variable (c : Chirality)

/-- The period around the tube. -/
noncomputable def chiralVector (a1 a2 : V) : V :=
  (c.n : ℝ) • a1 + (c.m : ℝ) • a2

/-- The period along the tube. -/
noncomputable def axialVector (a1 a2 : V) : V :=
  (c.t1 : ℝ) • a1 + (c.t2 : ℝ) • a2

/-- The components of a vector along the two periods of the tube. -/
noncomputable def components (a1 a2 v : V) : ℝ × ℝ :=
  (inner ℝ v (c.chiralVector a1 a2) / ‖c.chiralVector a1 a2‖,
    inner ℝ v (c.axialVector a1 a2) / ‖c.axialVector a1 a2‖)

/-- **The periods are perpendicular.** -/
theorem inner_chiralVector_axialVector (h : IsHexagonal bond a1 a2) :
    inner ℝ (c.chiralVector a1 a2) (c.axialVector a1 a2) = 0 := by
  have := c.dR_real_pos
  unfold chiralVector axialVector
  rw [h.inner_combine, t1_real, t2_real]
  field_simp
  ring

theorem norm_chiralVector (h : IsHexagonal bond a1 a2) (hbond : 0 < bond) :
    ‖c.chiralVector a1 a2‖ = c.circumference bond := by
  rw [← sq_eq_sq₀ (norm_nonneg _) (c.circumference_pos hbond).le, circumference_sq]
  exact h.norm_sq_combine c.n c.m

theorem norm_axialVector (h : IsHexagonal bond a1 a2) (hbond : 0 < bond) :
    ‖c.axialVector a1 a2‖ = c.axialPeriod bond := by
  have := c.dR_real_pos
  rw [← sq_eq_sq₀ (norm_nonneg _) (c.axialPeriod_pos hbond).le, axialPeriod_sq]
  unfold axialVector
  rw [h.norm_sq_combine, t1_real, t2_real]
  unfold hexForm
  field_simp
  ring

/-- **Components are coordinates.** -/
theorem components_combine (h : IsHexagonal bond a1 a2) (hbond : 0 < bond) (x y : ℝ) :
    c.components a1 a2 (x • a1 + y • a2) = c.coordinates bond x y := by
  have hd := c.dR_real_pos
  have hS := c.hexForm_pos
  have hcirc := c.circumference_pos hbond
  have haxial := c.axialPeriod_pos hbond
  have hcircSq := c.circumference_sq bond
  have haxialSq := c.axialPeriod_sq bond
  unfold components coordinates
  rw [c.norm_chiralVector h hbond, c.norm_axialVector h hbond]
  unfold chiralVector axialVector
  rw [h.inner_combine, h.inner_combine, hexagons_real, t1_real, t2_real]
  generalize hexForm c.n c.m = S at hS hcircSq haxialSq
  ext
  · dsimp only
    rw [div_eq_iff hcirc.ne']
    field_simp
    rw [hcircSq]
    ring
  · dsimp only
    rw [div_eq_iff haxial.ne']
    field_simp
    rw [haxialSq]
    field_simp
    ring

end Chirality

end Vectors

end Honeycomb
