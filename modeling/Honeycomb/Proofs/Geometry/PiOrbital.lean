import Mathlib
import Honeycomb.Poav
import Honeycomb.Proofs.Geometry.Rotation

/-!
# The axis at equal angles

What the pi-orbital axis of an atom with three bonds is, in exact arithmetic.

* `Bonds.directions`, `Bonds.normal` — the unit bonds, and the normal of the plane through the tips
  of three vectors. `Bonds.IsDegenerate` — a bond or the normal has no direction.
* `Bonds.axis` — the direction of the normal, on the side away from the bonds; `Bonds.product` — its
  inner product with each of the unit bonds.
* `Bonds.normal_of_perm` — another order of the bonds at most turns the normal around;
  `Bonds.axis_of_perm` — and leaves the axis as it is, unless the bonds lie in a plane.
* `Poav.IsAtEqualAngles` — an axis that makes one angle with all bonds and points away from them.

Principal result: `Poav.axis_at_equal_angles` — the axis is found unless the bonds are degenerate,
and then makes one angle, not below a right one, with all of them.
-/

set_option autoImplicit false

namespace Honeycomb

namespace Vec3

variable {u v w : Vec3 ℝ} {tolerance : ℝ}

theorem unit?_eq_some_iff :
    v.unit? tolerance = some u ↔ tolerance < v.norm ∧ v / v.norm = u := by
  unfold unit?
  split <;> simp_all

theorem unit?_of_lt (h : tolerance < v.norm) : v.unit? tolerance = some (v / v.norm) :=
  unit?_eq_some_iff.2 ⟨h, rfl⟩

/-! ## Products -/

theorem div_mk (x y z a : ℝ) : Vec3.mk x y z / a = ⟨x / a, y / a, z / a⟩ :=
  rfl

theorem neg_dot (v w : Vec3 ℝ) : (-v).dot w = -v.dot w := by
  cases v
  simp only [dot, neg_mk]
  ring

theorem dot_add (u v w : Vec3 ℝ) : u.dot (v + w) = u.dot v + u.dot w := by
  cases v; cases w
  simp only [dot, add_mk]
  ring

theorem div_dot (v w : Vec3 ℝ) (a : ℝ) : (v / a).dot w = v.dot w / a := by
  cases v
  simp only [dot, div_mk]
  ring

theorem norm_neg (v : Vec3 ℝ) : (-v).norm = v.norm := by
  cases v
  simp only [norm, normSq, dot, neg_mk, neg_mul_neg]

theorem neg_div (v : Vec3 ℝ) (a : ℝ) : -v / a = -(v / a) := by
  cases v
  simp only [neg_mk, div_mk, mk.injEq]
  refine ⟨?_, ?_, ?_⟩ <;> ring

theorem div_by_one (v : Vec3 ℝ) : v / (1 : ℝ) = v := by
  cases v
  simp only [div_mk, div_one]

theorem norm_div_norm (h : v.norm ≠ 0) : (v / v.norm).norm = 1 := by
  rw [norm, normSq, dot_div_norm h]
  exact Real.sqrt_one

/-- The inner product of two unit vectors is a cosine. -/
theorem neg_one_le_dot (hv : v.norm = 1) (hw : w.norm = 1) : -1 ≤ v.dot w := by
  have hvv := v.norm_mul_norm
  have hww := w.norm_mul_norm
  rw [hv] at hvv
  rw [hw] at hww
  unfold dot
  linarith [mul_self_nonneg (v.x + w.x), mul_self_nonneg (v.y + w.y), mul_self_nonneg (v.z + w.z)]

theorem cross_swap (v w : Vec3 ℝ) : v.cross w = -w.cross v := by
  simp only [cross, neg_mk, mk.injEq]
  refine ⟨?_, ?_, ?_⟩ <;> ring

/-- The normal of the plane through three points, as a sum that goes around. -/
theorem cross_sub_sub (u v w : Vec3 ℝ) :
    (v - u).cross (w - u) = u.cross v + v.cross w + w.cross u := by
  cases u; cases v; cases w
  simp only [cross, sub_mk, add_mk, mk.injEq]
  refine ⟨?_, ?_, ?_⟩ <;> ring

/-- The normal is at right angles to the plane. -/
theorem cross_sub_sub_dot (u v w : Vec3 ℝ) :
    ((v - u).cross (w - u)).dot v = ((v - u).cross (w - u)).dot u ∧
      ((v - u).cross (w - u)).dot w = ((v - u).cross (w - u)).dot u := by
  cases u; cases v; cases w
  simp only [cross, sub_mk, dot]
  constructor <;> ring

end Vec3

/-! ## Three bonds -/

namespace Bonds

/-- The bonds in order. -/
def toList (b : Bonds ℝ) : List (Vec3 ℝ) :=
  [b.first, b.second, b.third]

/-- The unit bonds. -/
noncomputable def directions (b : Bonds ℝ) : Bonds ℝ :=
  ⟨b.first / b.first.norm, b.second / b.second.norm, b.third / b.third.norm⟩

/-- The normal of the plane through the tips. -/
noncomputable def normal (b : Bonds ℝ) : Vec3 ℝ :=
  (b.second - b.first).cross (b.third - b.first)

/-- The sum of the bonds. -/
noncomputable def sum (b : Bonds ℝ) : Vec3 ℝ :=
  b.first + b.second + b.third

/-- **A bond is zero, or the tips of the unit bonds lie on a line**, within the tolerance. -/
def IsDegenerate (b : Bonds ℝ) : Prop :=
  (∃ v ∈ b.toList, v.norm ≤ 1e-12) ∨ b.directions.normal.norm ≤ 1e-12

/-- A vector turned to the side of a plane that another one does not point to. -/
def outward {α : Type} [Scalar α] (away v : Vec3 α) : Vec3 α :=
  if 0 < v.dot away then -v else v

/-- The direction at equal angles to the bonds. -/
noncomputable def axis (b : Bonds ℝ) : Vec3 ℝ :=
  outward b.directions.sum (b.directions.normal / b.directions.normal.norm)

theorem outward_dot_nonpos (away v : Vec3 ℝ) : (outward away v).dot away ≤ 0 := by
  unfold outward
  split
  · rw [Vec3.neg_dot]
    linarith
  · linarith

theorem outward_neg {away v : Vec3 ℝ} (h : v.dot away ≠ 0) :
    outward away (-v) = outward away v := by
  unfold outward
  rw [Vec3.neg_dot, neg_neg]
  rcases h.lt_or_gt with hneg | hpos
  · rw [if_pos (by linarith), if_neg (by linarith)]
  · rw [if_neg (by linarith), if_pos hpos]

theorem outward_eq (away v : Vec3 ℝ) : outward away v = v ∨ outward away v = -v := by
  unfold outward
  split <;> simp

variable {b b' : Bonds ℝ}

/-! ## Orders -/

/-- The six orders of three bonds. -/
theorem eq_of_perm (h : b'.toList.Perm b.toList) :
    b' = b ∨ b' = ⟨b.second, b.third, b.first⟩ ∨ b' = ⟨b.third, b.first, b.second⟩ ∨
      b' = ⟨b.second, b.first, b.third⟩ ∨ b' = ⟨b.first, b.third, b.second⟩ ∨
        b' = ⟨b.third, b.second, b.first⟩ := by
  rw [← List.mem_permutations'] at h
  obtain ⟨u, v, w⟩ := b
  obtain ⟨x, y, z⟩ := b'
  simp only [toList, List.permutations', List.permutations'Aux, List.flatMap_cons,
    List.flatMap_nil, List.append_nil, List.map_cons, List.map_nil, List.cons_append,
    List.nil_append, List.mem_cons, List.cons.injEq, and_true, List.not_mem_nil, or_false] at h
  simp only [mk.injEq]
  tauto

/-- **Another order of the bonds at most turns the normal around.** -/
theorem normal_of_perm (h : b'.toList.Perm b.toList) :
    b'.normal = b.normal ∨ b'.normal = -b.normal := by
  have h21 := Vec3.cross_swap b.second b.first
  have h32 := Vec3.cross_swap b.third b.second
  have h13 := Vec3.cross_swap b.first b.third
  unfold normal
  rw [Vec3.cross_sub_sub, Vec3.cross_sub_sub]
  rcases eq_of_perm h with rfl | rfl | rfl | rfl | rfl | rfl
  · exact .inl rfl
  · exact .inl (by abel)
  · exact .inl (by abel)
  · exact .inr (by rw [h21, h32, h13]; abel)
  · exact .inr (by rw [h21, h32, h13]; abel)
  · exact .inr (by rw [h21, h32, h13]; abel)

theorem sum_of_perm (h : b'.toList.Perm b.toList) : b'.sum = b.sum := by
  have hsum (b : Bonds ℝ) : b.sum = b.toList.sum := by
    simp [sum, toList, add_assoc]
  rw [hsum, hsum, h.sum_eq]

theorem directions_perm (h : b'.toList.Perm b.toList) :
    b'.directions.toList.Perm b.directions.toList :=
  h.map fun v : Vec3 ℝ => v / v.norm

theorem isDegenerate_of_perm (h : b'.toList.Perm b.toList) : b'.IsDegenerate ↔ b.IsDegenerate := by
  have hnorm : b'.directions.normal.norm = b.directions.normal.norm := by
    rcases normal_of_perm (directions_perm h) with heq | heq
    · rw [heq]
    · rw [heq, Vec3.norm_neg]
  simp only [IsDegenerate, hnorm, h.mem_iff]

/-! ## Angles -/

theorem normal_dot (b : Bonds ℝ) {u : Vec3 ℝ} (hu : u ∈ b.toList) :
    b.normal.dot u = b.normal.dot b.first := by
  obtain ⟨hsecond, hthird⟩ := Vec3.cross_sub_sub_dot b.first b.second b.third
  simp only [toList, List.mem_cons, List.not_mem_nil, or_false] at hu
  rcases hu with rfl | rfl | rfl
  · rfl
  · exact hsecond
  · exact hthird

/-- The axis is a multiple of the normal. -/
theorem exists_axis_dot_eq (b : Bonds ℝ) :
    ∃ a : ℝ, ∀ v, b.axis.dot v = a * b.directions.normal.dot v := by
  rcases outward_eq b.directions.sum (b.directions.normal / b.directions.normal.norm) with h | h
  · refine ⟨1 / b.directions.normal.norm, fun v => ?_⟩
    rw [axis, h, Vec3.div_dot]
    ring
  · refine ⟨-1 / b.directions.normal.norm, fun v => ?_⟩
    rw [axis, h, Vec3.neg_dot, Vec3.div_dot]
    ring

/-- The inner product of the axis with each of the unit bonds. -/
noncomputable def product (b : Bonds ℝ) : ℝ :=
  b.axis.dot b.directions.first

/-- **The axis has one inner product with all unit bonds.** -/
theorem axis_dot (b : Bonds ℝ) {u : Vec3 ℝ} (hu : u ∈ b.directions.toList) :
    b.axis.dot u = b.product := by
  obtain ⟨a, haxis⟩ := b.exists_axis_dot_eq
  rw [product, haxis, haxis, normal_dot _ hu]

theorem axis_dot_sum (b : Bonds ℝ) :
    b.axis.dot b.directions.sum = b.product + b.product + b.product := by
  rw [sum, Vec3.dot_add, Vec3.dot_add, b.axis_dot (.head _), b.axis_dot (.tail _ (.head _)),
    b.axis_dot (.tail _ (.tail _ (.head _)))]

theorem product_nonpos (b : Bonds ℝ) : b.product ≤ 0 := by
  have hsum : b.axis.dot b.directions.sum ≤ 0 := outward_dot_nonpos _ _
  rw [axis_dot_sum] at hsum
  linarith

/-- **Another order of the bonds leaves the axis as it is**, unless they lie in a plane. -/
theorem axis_of_perm (h : b'.toList.Perm b.toList) (hplane : b.product ≠ 0) :
    b'.axis = b.axis := by
  unfold axis
  rw [sum_of_perm (directions_perm h)]
  rcases normal_of_perm (directions_perm h) with heq | heq
  · rw [heq]
  · rw [heq, Vec3.norm_neg, Vec3.neg_div]
    apply outward_neg
    intro hzero
    have hsum : b.axis.dot b.directions.sum = 0 := by
      rcases outward_eq b.directions.sum (b.directions.normal / b.directions.normal.norm) with h | h
      · rw [axis, h, hzero]
      · rw [axis, h, Vec3.neg_dot, hzero, neg_zero]
    rw [axis_dot_sum] at hsum
    exact hplane (by linarith)

theorem norm_axis (h : ¬b.IsDegenerate) : b.axis.norm = 1 := by
  have hnormal : b.directions.normal.norm ≠ 0 := by
    intro hzero
    exact h (.inr (by rw [hzero]; norm_num))
  rcases outward_eq b.directions.sum (b.directions.normal / b.directions.normal.norm) with h | h
  · rw [axis, h, Vec3.norm_div_norm hnormal]
  · rw [axis, h, Vec3.norm_neg, Vec3.norm_div_norm hnormal]

/-- The inner product of unit vectors is a cosine. -/
theorem neg_one_le_product (h : ¬b.IsDegenerate) : -1 ≤ b.product := by
  have hfirst : b.directions.first.norm = 1 := by
    apply Vec3.norm_div_norm
    intro hzero
    exact h (.inl ⟨b.first, .head _, by rw [hzero]; norm_num⟩)
  exact Vec3.neg_one_le_dot (norm_axis h) hfirst

end Bonds

/-! ## The analysis -/

namespace Poav

variable {b : Bonds ℝ}

theorem isDegenerate_iff : b.IsDegenerate ↔ b.first.norm ≤ tolerance ∨ b.second.norm ≤ tolerance ∨
    b.third.norm ≤ tolerance ∨ b.directions.normal.norm ≤ tolerance := by
  simp [Bonds.IsDegenerate, Bonds.toList, tolerance, or_assoc]

/-- **The result for bonds that are not degenerate.** The axis that is found has length one, so that
taking its direction once more changes nothing. -/
theorem equalAngles?_of_not_isDegenerate (h : ¬b.IsDegenerate) :
    equalAngles? b = some ⟨.poav1, b.axis, Vec3.const (Real.arccos b.product)⟩ := by
  have hunit := Bonds.norm_axis h
  have haxis : b.axis.unit? tolerance = some b.axis := by
    rw [Vec3.unit?_eq_some_iff, hunit]
    exact ⟨by norm_num [tolerance], Vec3.div_by_one _⟩
  have hangle (u : Vec3 ℝ) (hu : u ∈ b.directions.toList) :
      angleTo b.axis u = Real.arccos b.product := by
    rw [angleTo, Scalar.acos_clamp, b.axis_dot hu]
  simp only [isDegenerate_iff, not_or, not_le] at h
  obtain ⟨hfirst, hsecond, hthird, hnormal⟩ := h
  have hmake : make? .poav1 b.axis b =
      some ⟨.poav1, b.axis, Vec3.const (Real.arccos b.product)⟩ := by
    simp only [make?, haxis, Vec3.unit?_of_lt hfirst, Vec3.unit?_of_lt hsecond,
      Vec3.unit?_of_lt hthird]
    change some (Poav.mk .poav1 b.axis ⟨angleTo b.axis b.directions.first,
      angleTo b.axis b.directions.second, angleTo b.axis b.directions.third⟩) = _
    rw [hangle _ (.head _), hangle _ (.tail _ (.head _)), hangle _ (.tail _ (.tail _ (.head _)))]
    rfl
  simp only [equalAngles?, Vec3.unit?_of_lt hfirst, Vec3.unit?_of_lt hsecond,
    Vec3.unit?_of_lt hthird]
  change (b.directions.normal.unit? tolerance >>= _) = _
  rw [Vec3.unit?_of_lt hnormal]
  exact hmake

/-- **There is no result just for degenerate bonds.** -/
theorem equalAngles?_eq_none_iff : equalAngles? b = none ↔ b.IsDegenerate := by
  constructor
  · intro h
    by_contra hb
    rw [equalAngles?_of_not_isDegenerate hb] at h
    cases h
  · rw [Option.eq_none_iff_forall_ne_some]
    intro hb p hp
    simp only [equalAngles?, Option.bind_eq_bind, Option.bind_eq_some_iff,
      Vec3.unit?_eq_some_iff] at hp
    obtain ⟨_, ⟨hfirst, rfl⟩, _, ⟨hsecond, rfl⟩, _, ⟨hthird, rfl⟩, _, ⟨hnormal, -⟩, -⟩ := hp
    rcases isDegenerate_iff.1 hb with h | h | h | h
    · exact hfirst.not_ge h
    · exact hsecond.not_ge h
    · exact hthird.not_ge h
    · exact hnormal.not_ge h

/-- **An axis at equal angles to three bonds**, with a given inner product with all unit bonds. -/
structure IsAtEqualAngles (b : Bonds ℝ) (p : Poav ℝ) (product : ℝ) : Prop where
  kind : p.kind = .poav1
  unit : p.axis.norm = 1
  dot : ∀ u ∈ b.directions.toList, p.axis.dot u = product
  cosine : -1 ≤ product
  away : product ≤ 0
  angles : p.angles = Vec3.const (Real.arccos product)
  obtuse : ∀ angle ∈ p.angles.toList, Real.pi / 2 ≤ angle
  pyramidal : 0 ≤ p.pyramidalization
  order : product ≠ 0 → ∀ b' : Bonds ℝ, b'.toList.Perm b.toList →
    ∃ p', equalAngles? b' = some p' ∧ p'.axis = p.axis

/-- What is found is such an axis. -/
theorem isAtEqualAngles_axis (h : ¬b.IsDegenerate) :
    IsAtEqualAngles b ⟨.poav1, b.axis, Vec3.const (Real.arccos b.product)⟩ b.product := by
  have hobtuse : Real.pi / 2 ≤ Real.arccos b.product := by
    rw [← Real.arccos_zero]
    exact Real.arccos_le_arccos b.product_nonpos
  exact {
    kind := rfl
    unit := Bonds.norm_axis h
    dot := fun _ => b.axis_dot
    cosine := Bonds.neg_one_le_product h
    away := b.product_nonpos
    angles := rfl
    obtuse := by simpa [Vec3.const, Vec3.toList] using hobtuse
    pyramidal := by
      norm_num [pyramidalization, meanAngle, Vec3.const]
      linarith
    order := by
      intro hproduct b' hperm
      refine ⟨_, equalAngles?_of_not_isDegenerate (mt (Bonds.isDegenerate_of_perm hperm).1 h), ?_⟩
      exact Bonds.axis_of_perm hperm hproduct
  }

/-- **The axis at equal angles points away from the bonds**, for any three bonds. -/
theorem axis_at_equal_angles (b : Bonds ℝ) :
    (equalAngles? b = none ↔ b.IsDegenerate) ∧
      ∀ p, equalAngles? b = some p → ∃ product, IsAtEqualAngles b p product := by
  refine ⟨equalAngles?_eq_none_iff, fun p hp => ?_⟩
  have hb : ¬b.IsDegenerate := by
    rw [← equalAngles?_eq_none_iff, hp]
    exact Option.some_ne_none p
  rw [equalAngles?_of_not_isDegenerate hb, Option.some.injEq] at hp
  obtain rfl := hp
  exact ⟨b.product, isAtEqualAngles_axis hb⟩

end Poav

end Honeycomb
