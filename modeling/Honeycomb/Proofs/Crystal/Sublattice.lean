import Mathlib
import Honeycomb.Crystal.Scaling

/-!
# The points modulo the rows of a matrix

A matrix of integers with positive determinant spans a sublattice of the integer points.

* `Mat3.combine` — a combination of the rows; `Mat3.moved` — a point moved by one.
* `Mat3.Congruent` — one point is the other one moved.
* `Mat3.numerators` — the coordinates of a point in units of the rows, times the determinant.
* `Mat3.IsReduced` — the point lies in the cell of the rows, the near sides included and the far
  sides not. `Mat3.reduce` — the reduced point of a class; there is one (`reduced_reduce`), and
  only one (`eq_of_reduced`).
* `Mat3.IsTransversal` — a list that holds one point of each class.

Principal results: `isTransversal_of_reduced` — the reduced points are a transversal;
`card_classes` — there are as many classes as the determinant says; `isTransversal_iff_separated` —
so many points are a transversal as soon as no two of them are congruent.
-/

set_option autoImplicit false

namespace Honeycomb

namespace Mat3

variable {m : Mat3 Int} {p q w : Vec3 Int}

/-- The combination of the rows with given coefficients. -/
def combine (m : Mat3 Int) (w : Vec3 Int) : Vec3 Int :=
  ⟨w.x * m.row1.x + w.y * m.row2.x + w.z * m.row3.x,
    w.x * m.row1.y + w.y * m.row2.y + w.z * m.row3.y,
    w.x * m.row1.z + w.y * m.row2.z + w.z * m.row3.z⟩

/-- A point moved by a combination of the rows. -/
def moved (m : Mat3 Int) (p w : Vec3 Int) : Vec3 Int :=
  p.zipWith (· + ·) (m.combine w)

/-- The second point is the first one moved by a combination of the rows. -/
def Congruent (m : Mat3 Int) (p q : Vec3 Int) : Prop :=
  ∃ w, q = m.moved p w

/-- The coordinates of a point in units of the rows, times the determinant: the product with the
adjugate. -/
def numerators (m : Mat3 Int) (p : Vec3 Int) : Vec3 Int :=
  ⟨p.x * (m.row2.y * m.row3.z - m.row3.y * m.row2.z)
      - p.y * (m.row2.x * m.row3.z - m.row3.x * m.row2.z)
      + p.z * (m.row2.x * m.row3.y - m.row3.x * m.row2.y),
    p.x * (m.row1.z * m.row3.y - m.row3.z * m.row1.y)
      + p.y * (m.row1.x * m.row3.z - m.row3.x * m.row1.z)
      + p.z * (m.row1.y * m.row3.x - m.row3.y * m.row1.x),
    p.x * (m.row1.y * m.row2.z - m.row2.y * m.row1.z)
      + p.y * (m.row2.x * m.row1.z - m.row2.z * m.row1.x)
      + p.z * (m.row1.x * m.row2.y - m.row2.x * m.row1.y)⟩

/-- The point lies in the cell of the rows: its coordinates are at least zero and below one. -/
def IsReduced (m : Mat3 Int) (p : Vec3 Int) : Prop :=
  (0 ≤ (m.numerators p).x ∧ (m.numerators p).x < m.intDet) ∧
    (0 ≤ (m.numerators p).y ∧ (m.numerators p).y < m.intDet) ∧
      (0 ≤ (m.numerators p).z ∧ (m.numerators p).z < m.intDet)

/-- The whole parts of the coordinates of a point. -/
def wholes (m : Mat3 Int) (p : Vec3 Int) : Vec3 Int :=
  (m.numerators p).map (· / m.intDet)

/-- The point of the class of `p` in the cell of the rows. -/
def reduce (m : Mat3 Int) (p : Vec3 Int) : Vec3 Int :=
  m.moved p ((m.wholes p).map (- ·))

/-- A list with one point of each class. -/
def IsTransversal (m : Mat3 Int) (places : List (Vec3 Int)) : Prop :=
  ∀ p, ∃! i : Fin places.length, m.Congruent places[i] p

/-- No two points of a list are congruent. -/
def IsSeparated (m : Mat3 Int) (places : List (Vec3 Int)) : Prop :=
  ∀ i j : Fin places.length, m.Congruent places[i] places[j] → i = j

/-! ## Coordinates -/

theorem numerators_moved (m : Mat3 Int) (p w : Vec3 Int) :
    m.numerators (m.moved p w) =
      (m.numerators p).zipWith (fun a k => a + m.intDet * k) w := by
  simp only [numerators, moved, combine, Vec3.zipWith, intDet, Vec3.mk.injEq]
  refine ⟨?_, ?_, ?_⟩ <;> ring

theorem combine_numerators (m : Mat3 Int) (p : Vec3 Int) :
    m.combine (m.numerators p) = p.map (m.intDet * ·) := by
  simp only [numerators, combine, Vec3.map, intDet, Vec3.mk.injEq]
  refine ⟨?_, ?_, ?_⟩ <;> ring

theorem moved_moved (m : Mat3 Int) (p v w : Vec3 Int) :
    m.moved (m.moved p v) w = m.moved p (v.zipWith (· + ·) w) := by
  simp only [moved, combine, Vec3.zipWith, Vec3.mk.injEq]
  refine ⟨?_, ?_, ?_⟩ <;> ring

theorem moved_zero (m : Mat3 Int) (p : Vec3 Int) : m.moved p ⟨0, 0, 0⟩ = p := by
  simp [moved, combine, Vec3.zipWith]

/-- The combination that leads from one point to another is determined. -/
theorem moved_injective (hdet : 0 < m.intDet) {v w : Vec3 Int} (h : m.moved p v = m.moved p w) :
    v = w := by
  have hn := congrArg m.numerators h
  obtain ⟨vx, vy, vz⟩ := v
  obtain ⟨wx, wy, wz⟩ := w
  simpa [numerators_moved, Vec3.zipWith, hdet.ne'] using hn

/-! ## Classes -/

theorem Congruent.refl (m : Mat3 Int) (p : Vec3 Int) : m.Congruent p p :=
  ⟨_, (m.moved_zero p).symm⟩

theorem Congruent.symm (h : m.Congruent p q) : m.Congruent q p := by
  obtain ⟨w, rfl⟩ := h
  refine ⟨w.map (- ·), ?_⟩
  rw [moved_moved]
  simp [Vec3.zipWith, Vec3.map, moved_zero]

theorem Congruent.trans {r : Vec3 Int} (hpq : m.Congruent p q) (hqr : m.Congruent q r) :
    m.Congruent p r := by
  obtain ⟨v, rfl⟩ := hpq
  obtain ⟨w, rfl⟩ := hqr
  exact ⟨_, m.moved_moved p v w⟩

/-- The classes of points. -/
def classes (m : Mat3 Int) : Setoid (Vec3 Int) where
  r := m.Congruent
  iseqv := ⟨Congruent.refl m, Congruent.symm, Congruent.trans⟩

/-! ## Reduced points -/

theorem numerators_reduce (m : Mat3 Int) (p : Vec3 Int) :
    m.numerators (m.reduce p) = (m.numerators p).map (· % m.intDet) := by
  rw [reduce, numerators_moved]
  simp only [wholes, Vec3.zipWith, Vec3.map, Vec3.mk.injEq, Int.emod_def]
  refine ⟨?_, ?_, ?_⟩ <;> ring

theorem reduced_reduce (hdet : 0 < m.intDet) (p : Vec3 Int) : m.IsReduced (m.reduce p) := by
  have hpos (a : Int) : 0 ≤ a % m.intDet ∧ a % m.intDet < m.intDet :=
    ⟨Int.emod_nonneg a hdet.ne', Int.emod_lt_of_pos a hdet⟩
  simp only [IsReduced, numerators_reduce, Vec3.map]
  exact ⟨hpos _, hpos _, hpos _⟩

theorem congruent_reduce (m : Mat3 Int) (p : Vec3 Int) : m.Congruent (m.reduce p) p :=
  Congruent.symm ⟨_, rfl⟩

/-- A multiple of the modulus between two remainders is zero. -/
theorem eq_zero_of_remainders {d a k : Int} (h0 : 0 ≤ a) (hd : a < d) (h0' : 0 ≤ a + d * k)
    (hd' : a + d * k < d) : k = 0 := by
  by_contra hk
  rcases lt_or_gt_of_ne hk with h | h
  · nlinarith
  · nlinarith

/-- Two reduced points of one class are the same. -/
theorem eq_of_reduced (hp : m.IsReduced p) (hq : m.IsReduced q) (h : m.Congruent p q) :
    p = q := by
  obtain ⟨w, rfl⟩ := h
  obtain ⟨⟨hx, hx'⟩, ⟨hy, hy'⟩, hz, hz'⟩ := hp
  simp only [IsReduced, numerators_moved, Vec3.zipWith] at hq
  obtain ⟨⟨hqx, hqx'⟩, ⟨hqy, hqy'⟩, hqz, hqz'⟩ := hq
  have hw : w = ⟨0, 0, 0⟩ := by
    obtain ⟨a, b, c⟩ := w
    rw [Vec3.mk.injEq]
    exact ⟨eq_zero_of_remainders hx hx' hqx hqx', eq_zero_of_remainders hy hy' hqy hqy',
      eq_zero_of_remainders hz hz' hqz hqz'⟩
  rw [hw, moved_zero]

/-- **The reduced points, each once, are a transversal.** -/
theorem isTransversal_of_reduced (hdet : 0 < m.intDet) {places : List (Vec3 Int)}
    (hnodup : places.Nodup) (h : ∀ p, p ∈ places ↔ m.IsReduced p) : m.IsTransversal places := by
  intro p
  obtain ⟨i, hi, hget⟩ := List.mem_iff_getElem.1 ((h _).2 (reduced_reduce hdet p))
  refine ⟨⟨i, hi⟩, ?_, fun j hj => ?_⟩
  · simp only [Fin.getElem_fin, hget]
    exact congruent_reduce m p
  · have hred : m.IsReduced places[j] := (h _).1 (List.getElem_mem _)
    have heq : places[j] = m.reduce p :=
      eq_of_reduced hred (reduced_reduce hdet p) (Congruent.trans hj (congruent_reduce m p).symm)
    apply Fin.ext
    exact (List.Nodup.getElem_inj_iff hnodup).1 (heq.trans hget.symm)

/-! ## The number of classes -/

/-- Points as functions of the number of the component. -/
def components : Vec3 Int ≃ (Fin 3 → Int) where
  toFun v := ![v.x, v.y, v.z]
  invFun f := ⟨f 0, f 1, f 2⟩
  left_inv _ := rfl
  right_inv f := by
    ext i
    fin_cases i <;> rfl

theorem components_apply (v : Vec3 Int) : components v = ![v.x, v.y, v.z] := rfl

/-- The combination of the rows as a linear map. -/
noncomputable def combineLinear (m : Mat3 Int) : (Fin 3 → Int) →ₗ[Int] (Fin 3 → Int) :=
  Matrix.toLin'
    !![m.row1.x, m.row2.x, m.row3.x; m.row1.y, m.row2.y, m.row3.y; m.row1.z, m.row2.z, m.row3.z]

theorem combineLinear_components (m : Mat3 Int) (w : Vec3 Int) :
    m.combineLinear (components w) = components (m.combine w) := by
  ext i
  fin_cases i <;>
    simp [combineLinear, components_apply, combine, Matrix.mulVec, dotProduct,
      Fin.sum_univ_three, mul_comm]

theorem det_combineLinear (m : Mat3 Int) : LinearMap.det m.combineLinear = m.intDet := by
  rw [combineLinear, LinearMap.det_toLin', Matrix.det_fin_three]
  simp [intDet]
  ring

theorem combineLinear_injective (hdet : 0 < m.intDet) : Function.Injective m.combineLinear := by
  intro f g h
  obtain ⟨v, rfl⟩ := components.surjective f
  obtain ⟨w, rfl⟩ := components.surjective g
  rw [combineLinear_components, combineLinear_components, components.apply_eq_iff_eq] at h
  have hmoved : m.moved ⟨0, 0, 0⟩ v = m.moved ⟨0, 0, 0⟩ w := by rw [moved, moved, h]
  rw [moved_injective hdet hmoved]

theorem congruent_iff_sub_mem (m : Mat3 Int) (p q : Vec3 Int) :
    m.Congruent p q ↔ components q - components p ∈ LinearMap.range m.combineLinear := by
  have key (w : Vec3 Int) :
      q = m.moved p w ↔ m.combineLinear (components w) = components q - components p := by
    rw [combineLinear_components, eq_sub_iff_add_eq', ← components.apply_eq_iff_eq, eq_comm]
    have : components (m.moved p w) = components p + components (m.combine w) := by
      ext i
      fin_cases i <;> rfl
    rw [this]
  constructor
  · rintro ⟨w, hw⟩
    exact ⟨components w, (key w).1 hw⟩
  · rintro ⟨f, hf⟩
    obtain ⟨w, rfl⟩ := components.surjective f
    exact ⟨w, (key w).2 hf⟩

/-- **There are as many classes as the determinant says.** -/
theorem card_classes (hdet : 0 < m.intDet) : (Nat.card (Quotient m.classes) : Int) = m.intDet := by
  let e := LinearEquiv.ofInjective m.combineLinear (combineLinear_injective hdet)
  have hcard : Nat.card (Quotient m.classes) =
      Nat.card ((Fin 3 → Int) ⧸ LinearMap.range m.combineLinear) := by
    refine Nat.card_congr (Quotient.congr components fun p q => ?_)
    rw [Submodule.quotientRel_def, ← neg_mem_iff, neg_sub]
    exact congruent_iff_sub_mem m p q
  have he : (LinearMap.range m.combineLinear).subtype ∘ₗ
      AddMonoidHom.toIntLinearMap (e : (Fin 3 → Int) →+ LinearMap.range m.combineLinear) =
        m.combineLinear := by
    ext
    rfl
  have hindex := Submodule.natAbs_det_equiv (LinearMap.range m.combineLinear) e
  rw [he, det_combineLinear] at hindex
  rw [hcard, ← hindex, Int.natAbs_of_nonneg hdet.le]

/-! ## Transversals -/

/-- The classes of the points of a list. -/
def classOf (m : Mat3 Int) (places : List (Vec3 Int)) (i : Fin places.length) :
    Quotient m.classes :=
  Quotient.mk _ places[i]

theorem classOf_eq_mk {places : List (Vec3 Int)} {i : Fin places.length} :
    m.classOf places i = Quotient.mk _ p ↔ m.Congruent places[i] p :=
  Quotient.eq

theorem isTransversal_iff_bijective {places : List (Vec3 Int)} :
    m.IsTransversal places ↔ Function.Bijective (m.classOf places) := by
  rw [Function.bijective_iff_existsUnique]
  constructor
  · intro h c
    induction c using Quotient.inductionOn with
    | h p =>
      simp only [classOf_eq_mk]
      exact h p
  · intro h p
    have := h (Quotient.mk _ p)
    simp only [classOf_eq_mk] at this
    exact this

theorem isSeparated_iff_injective {places : List (Vec3 Int)} :
    m.IsSeparated places ↔ Function.Injective (m.classOf places) := by
  constructor
  · intro h i j hij
    exact h i j (Quotient.exact hij)
  · intro h i j hij
    exact h (Quotient.sound hij)

/-- A transversal has as many points as the determinant says. -/
theorem IsTransversal.length_eq {places : List (Vec3 Int)} (hdet : 0 < m.intDet)
    (h : m.IsTransversal places) : (places.length : Int) = m.intDet := by
  rw [← card_classes hdet, ← Nat.card_congr (Equiv.ofBijective _ (isTransversal_iff_bijective.1 h)),
    Nat.card_fin]

/-- **As many points as the determinant says are a transversal when no two are congruent.** -/
theorem isTransversal_iff_separated {places : List (Vec3 Int)} (hdet : 0 < m.intDet)
    (hlen : (places.length : Int) = m.intDet) : m.IsTransversal places ↔ m.IsSeparated places := by
  have hcard : Nat.card (Fin places.length) = Nat.card (Quotient m.classes) := by
    rw [Nat.card_fin]
    exact_mod_cast hlen.trans (card_classes hdet).symm
  have : Finite (Quotient m.classes) := by
    apply Nat.finite_of_card_ne_zero
    have := card_classes hdet
    omega
  rw [isTransversal_iff_bijective, isSeparated_iff_injective]
  exact (Nat.bijective_iff_injective_and_card _).trans (and_iff_left hcard)

end Mat3

end Honeycomb
