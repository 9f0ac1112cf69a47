import Honeycomb.Proofs.Crystal.Tiling

/-!
# The scan for the places of a supercell

* `Vec3.LexLess` — the lexicographic order of points; `pairwise_pointsInBox` — the points of a box
  are found in it.
* `ScalingMatrix.coordinates` — a point in units of the rows, by the inverse over the rational
  numbers; `ScalingMatrix.IsInCell` — they are all at least zero and below one.
* `ScalingMatrix.isInCell_iff` — this is what whole numbers say about the point.
* `ScalingMatrix.IsScannable` — the box of the corners is small enough to be scanned.

Principal result: `ScalingMatrix.scan_finds_cell` — in exact arithmetic a scan never fails once it
has begun, and it finds the points of the cell, one of each class.
-/

set_option autoImplicit false

namespace Honeycomb

/-! ## The order of the points -/

/-- The first point comes before the second in lexicographic order. -/
def Vec3.LexLess (p q : Vec3 Int) : Prop :=
  p.x < q.x ∨ p.x = q.x ∧ (p.y < q.y ∨ p.y = q.y ∧ p.z < q.z)

theorem pairwise_integersFromTo (lo hi : Int) : (integersFromTo lo hi).Pairwise (· < ·) := by
  rw [integersFromTo, List.pairwise_map]
  refine List.pairwise_lt_range.imp fun hab => ?_
  omega

/-- **The points of a box are found in lexicographic order.** -/
theorem pairwise_pointsInBox (lo hi : Vec3 Int) (keep : Vec3 Int → Bool) :
    (pointsInBox lo hi keep).Pairwise Vec3.LexLess := by
  unfold pointsInBox
  rw [List.pairwise_flatMap]
  refine ⟨fun i _ => ?_, ?_⟩
  · rw [List.pairwise_flatMap]
    refine ⟨fun j _ => ?_, ?_⟩
    · refine List.Pairwise.filter _ (List.pairwise_map.2 ?_)
      exact (pairwise_integersFromTo _ _).imp fun hkl => .inr ⟨rfl, .inr ⟨rfl, hkl⟩⟩
    · refine (pairwise_integersFromTo _ _).imp fun hjj p hp q hq => ?_
      obtain ⟨k, -, rfl⟩ := List.mem_map.1 (List.mem_filter.1 hp).1
      obtain ⟨l, -, rfl⟩ := List.mem_map.1 (List.mem_filter.1 hq).1
      exact .inr ⟨rfl, .inl hjj⟩
  · refine (pairwise_integersFromTo _ _).imp fun hii p hp q hq => ?_
    obtain ⟨j, -, hp⟩ := List.mem_flatMap.1 hp
    obtain ⟨j', -, hq⟩ := List.mem_flatMap.1 hq
    obtain ⟨k, -, rfl⟩ := List.mem_map.1 (List.mem_filter.1 hp).1
    obtain ⟨l, -, rfl⟩ := List.mem_map.1 (List.mem_filter.1 hq).1
    exact .inl hii

namespace ScalingMatrix

variable (s : ScalingMatrix)

/-! ## The points of the cell -/

/-- The matrix over the rational numbers. -/
def rational : Matrix (Fin 3) (Fin 3) ℚ :=
  !![s.rows.row1.x, s.rows.row1.y, s.rows.row1.z;
    s.rows.row2.x, s.rows.row2.y, s.rows.row2.z;
    s.rows.row3.x, s.rows.row3.y, s.rows.row3.z]

/-- A point in units of the rows: its product with the inverse. -/
noncomputable def coordinates (p : Vec3 Int) : Fin 3 → ℚ :=
  Matrix.vecMul ![(p.x : ℚ), p.y, p.z] s.rational⁻¹

/-- All coordinates of the point are at least zero and below one. -/
def IsInCell (p : Vec3 Int) : Prop :=
  ∀ i, 0 ≤ s.coordinates p i ∧ s.coordinates p i < 1

theorem det_rational : s.rational.det = s.rows.intDet := by
  simp [rational, Matrix.det_fin_three, Mat3.intDet]
  ring

theorem vecMul_rational (f : Fin 3 → ℚ) :
    Matrix.vecMul f s.rational =
      ![f 0 * s.rows.row1.x + f 1 * s.rows.row2.x + f 2 * s.rows.row3.x,
        f 0 * s.rows.row1.y + f 1 * s.rows.row2.y + f 2 * s.rows.row3.y,
        f 0 * s.rows.row1.z + f 1 * s.rows.row2.z + f 2 * s.rows.row3.z] := by
  ext i
  fin_cases i <;> simp [rational, Matrix.vecMul, dotProduct, Fin.sum_univ_three]

/-- The coordinates are fractions over the determinant. -/
theorem coordinates_eq (p : Vec3 Int) :
    s.coordinates p = fun i => (Mat3.components (s.rows.numerators p) i : ℚ) / s.rows.intDet := by
  have hdet : (s.rows.intDet : ℚ) ≠ 0 := by exact_mod_cast s.det_pos.ne'
  have hunit : IsUnit s.rational.det := by
    rw [det_rational]
    exact isUnit_iff_ne_zero.2 hdet
  have side {a b c u v w k : Int} (h : u * a + v * b + w * c = s.rows.intDet * k) :
      (u / s.rows.intDet * a + v / s.rows.intDet * b + w / s.rows.intDet * c : ℚ) = k := by
    field_simp
    exact_mod_cast h
  have hcombine := s.rows.combine_numerators p
  simp only [Mat3.combine, Vec3.map, Vec3.mk.injEq] at hcombine
  obtain ⟨hx, hy, hz⟩ := hcombine
  have hpoint : Matrix.vecMul
      (fun i => (Mat3.components (s.rows.numerators p) i : ℚ) / s.rows.intDet) s.rational =
        ![(p.x : ℚ), p.y, p.z] := by
    rw [vecMul_rational, ← side hx, ← side hy, ← side hz]
    rfl
  -- the product with the inverse undoes the product with the matrix
  rw [coordinates, ← hpoint, Matrix.vecMul_vecMul, Matrix.mul_nonsing_inv _ hunit,
    Matrix.vecMul_one]

/-- **A point lies in the cell just when it is reduced.** -/
theorem isInCell_iff (p : Vec3 Int) : s.IsInCell p ↔ s.rows.IsReduced p := by
  have hdet : (0 : ℚ) < s.rows.intDet := by exact_mod_cast s.det_pos
  have side (k : Int) : 0 ≤ (k : ℚ) / s.rows.intDet ∧ (k : ℚ) / s.rows.intDet < 1 ↔
      0 ≤ k ∧ k < s.rows.intDet := by
    rw [le_div_iff₀ hdet, zero_mul, div_lt_one hdet]
    norm_cast
  simp only [IsInCell, coordinates_eq, side, Mat3.IsReduced]
  exact Fin.forall_fin_succ.trans (and_congr Iff.rfl (Fin.forall_fin_two))

/-! ## Scans -/

/-- The box of the corners has no more points than are scanned, and its coordinates fit into 32
bits. -/
structure IsScannable : Prop where
  boxSize_le : boxSize (cornerBox s.rows).1 (cornerBox s.rows).2 ≤ maxScan
  isInRange : ∀ v ∈ (cornerBox s.rows).1.toList ++ (cornerBox s.rows).2.toList,
    isInRange v = true

variable {s}

/-- **A scan in exact arithmetic finds the points of the cell.** The slack of its test misjudges no
point at all. What is found is in lexicographic order without repetitions, has exactly the points
whose coordinates are at least zero and below one, and among them one of each class modulo the rows.
There are as many as the determinant says, so that the scan does not fail after all. -/
theorem scan_finds_cell (h : s.IsScannable) :
    ∃ places, (s.scanPlaces : Except (Error ℝ) _) = .ok places ∧
      (∃ inverse, (s.scalars : Mat3 ℝ).inverse? = some inverse ∧
        ∀ p, holds inverse.transpose p = true ↔ s.IsInCell p) ∧
      places.Pairwise Vec3.LexLess ∧ places.Nodup ∧ (∀ p, p ∈ places ↔ s.IsInCell p) ∧
      s.rows.IsTransversal places ∧ (places.length : Int) = s.det := by
  obtain ⟨inverse, hinverse, hholds⟩ := s.exists_inverse_real
  have hmem := mem_scanned_iff hinverse
  have htrans := Mat3.isTransversal_of_reduced s.det_pos (nodup_pointsInBox _ _ _) hmem
  have hlength := htrans.length_eq s.det_pos
  have hrange : ((cornerBox s.rows).1.toList ++ (cornerBox s.rows).2.toList).find?
      (!ScalingMatrix.isInRange ·) = none := by
    rw [List.find?_eq_none]
    intro v hv
    simp [h.isInRange v hv]
  refine ⟨_, ?_, ⟨inverse, hinverse, fun p => (hholds p).trans (s.isInCell_iff p).symm⟩,
    pairwise_pointsInBox _ _ _, nodup_pointsInBox _ _ _,
    fun p => (hmem p).trans (s.isInCell_iff p).symm, htrans, hlength⟩
  unfold scanPlaces
  rw [hinverse]
  dsimp only
  rw [if_neg (not_lt.2 h.boxSize_le), hrange]
  exact if_pos hlength

/-- A matrix with a row that points backward and no row along an axis. -/
def shearedScaling : ScalingMatrix :=
  ⟨⟨⟨2, 1, 0⟩, ⟨-1, 3, 1⟩, ⟨0, -2, 1⟩⟩, by decide, by decide⟩

theorem scan_finds_cell_sheared :
    shearedScaling.IsScannable ∧ shearedScaling.isDiagonal = false ∧
      ∃ places, (shearedScaling.scanPlaces : Except (Error ℝ) _) = .ok places ∧
        places.Pairwise Vec3.LexLess ∧ (∀ p, p ∈ places ↔ shearedScaling.IsInCell p) ∧
        places.length = 11 := by
  have h : shearedScaling.IsScannable := ⟨by decide, by decide⟩
  obtain ⟨places, hscan, -, hsorted, -, hmem, -, hlength⟩ := scan_finds_cell h
  have hdet : shearedScaling.det = 11 := by decide
  rw [hdet] at hlength
  exact ⟨h, by decide, places, hscan, hsorted, hmem, by exact_mod_cast hlength⟩

end ScalingMatrix

end Honeycomb
