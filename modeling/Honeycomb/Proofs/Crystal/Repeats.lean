import Honeycomb.Proofs.Crystal.Scan

/-!
# Repeating a unit cell along its vectors

The places of the unit cells are found in two ways: by counting along the three vectors, and by
scanning the box of the corners for the points of the cell.

* `ScalingMatrix.countedPlaces` — three loops, one inside the other; `boxPlaces_eq_countedPlaces`.
* `Vec3.eq_of_lexLess` — points in lexicographic order are known by which they are.
* `ScalingMatrix.rows_of_diagonal` — what it takes to repeat a cell along its vectors.
* `ScalingMatrix.cornerBox_of_isForward` — the box of the corners reaches one point beyond the cell
  on each far side; `ScalingMatrix.isScannable_of_isForward` — it is never too large to be scanned.

Principal result: `ScalingMatrix.counting_eq_scanning` — in exact arithmetic both ways lead to the
same list.
-/

set_option autoImplicit false

namespace Honeycomb

/-! ## Lists in lexicographic order -/

theorem Vec3.LexLess.asymm {p q : Vec3 Int} (h : p.LexLess q) : ¬q.LexLess p := by
  unfold Vec3.LexLess at *
  omega

/-- Two lists of the same points in lexicographic order are one. -/
theorem Vec3.eq_of_lexLess {ps qs : List (Vec3 Int)} (hps : ps.Pairwise Vec3.LexLess)
    (hqs : qs.Pairwise Vec3.LexLess) (h : ∀ p, p ∈ ps ↔ p ∈ qs) : ps = qs := by
  have hnodup {rs : List (Vec3 Int)} (hrs : rs.Pairwise Vec3.LexLess) : rs.Nodup := by
    refine hrs.imp fun hab heq => ?_
    rw [heq] at hab
    exact hab.asymm hab
  have hperm : ps.Perm qs := (List.perm_ext_iff_of_nodup (hnodup hps) (hnodup hqs)).2 h
  exact hperm.eq_of_pairwise (fun p q _ _ hpq hqp => absurd hqp hpq.asymm) hps hqs

namespace ScalingMatrix

/-! ## Counting -/

/-- The places that three loops lead to, from zero up to three counts. -/
def countedPlaces (n1 n2 n3 : Nat) : List (Vec3 Int) :=
  (List.range n1).flatMap fun (x : Nat) =>
    (List.range n2).flatMap fun (y : Nat) =>
      (List.range n3).map fun (z : Nat) => ⟨x, y, z⟩

theorem integersFromTo_zero (n : Int) :
    integersFromTo 0 (n - 1) = (List.range n.toNat).map fun (k : Nat) => (k : Int) := by
  have hlength : (n - 1 - 0 + 1).toNat = n.toNat := by omega
  unfold integersFromTo
  rw [hlength]
  exact List.map_congr_left fun k _ => zero_add _

/-- **The places in a box are counted** along its edges; a loop up to a negative number is empty. -/
theorem boxPlaces_eq_countedPlaces (n : Vec3 Int) :
    boxPlaces n = countedPlaces n.x.toNat n.y.toNat n.z.toNat := by
  unfold boxPlaces pointsInBox countedPlaces
  simp only [Vec3.map, integersFromTo_zero, List.flatMap_map, List.map_map, List.filter_true]
  rfl

/-! ## Matrices that repeat a cell -/

section

variable {α : Type} {n1 n2 n3 : Int} {s : ScalingMatrix}

/-- Repeat counts are accepted when they are positive. -/
theorem rows_of_diagonal (h : (diagonal n1 n2 n3 : Except (Error α) _) = .ok s) :
    (1 ≤ n1 ∧ 1 ≤ n2 ∧ 1 ≤ n3) ∧ s.rows = ⟨⟨n1, 0, 0⟩, ⟨0, n2, 0⟩, ⟨0, 0, n3⟩⟩ := by
  unfold diagonal at h
  split at h
  · cases h
  split at h
  · cases h
  split at h
  · cases h
  unfold ofRows at h
  dsimp only at h
  split at h
  · split at h
    · cases h
      refine ⟨?_, rfl⟩
      omega
    · cases h
  · cases h

/-- Such a matrix is diagonal, and its entries point forward. -/
theorem isForward_of_diagonal (h : (diagonal n1 n2 n3 : Except (Error α) _) = .ok s) :
    s.isDiagonal = true ∧ s.IsForward := by
  obtain ⟨⟨h1, h2, h3⟩, hrows⟩ := rows_of_diagonal h
  refine ⟨by rw [isDiagonal_iff, hrows], ?_⟩
  unfold IsForward
  rw [hrows]
  exact ⟨h1, h2, h3⟩

end

/-! ## Scanning -/

section

variable {s : ScalingMatrix}

theorem intDet_of_isDiagonal (hdiagonal : s.isDiagonal = true) :
    s.rows.intDet = s.rows.row1.x * s.rows.row2.y * s.rows.row3.z := by
  have hrows := s.isDiagonal_iff.1 hdiagonal
  generalize s.rows.row1.x = a, s.rows.row2.y = b, s.rows.row3.z = c at *
  rw [hrows, Mat3.intDet]
  ring

/-- The box of the corners reaches from the origin to the sum of the rows. -/
theorem cornerBox_of_isForward (hdiagonal : s.isDiagonal = true) (hforward : s.IsForward) :
    cornerBox s.rows = (⟨0, 0, 0⟩, ⟨s.rows.row1.x, s.rows.row2.y, s.rows.row3.z⟩) := by
  obtain ⟨hx, hy, hz⟩ := hforward
  have hrows := s.isDiagonal_iff.1 hdiagonal
  generalize s.rows.row1.x = a, s.rows.row2.y = b, s.rows.row3.z = c at *
  rw [hrows]
  simp [cornerBox, corners, corner, hx.le, hy.le, hz.le]

/-- **The box of a diagonal matrix is never too large to be scanned.** It has at most eight times as
many points as there are unit cells. -/
theorem isScannable_of_isForward (hdiagonal : s.isDiagonal = true) (hforward : s.IsForward) :
    s.IsScannable := by
  have hbox := cornerBox_of_isForward hdiagonal hforward
  have hdet := s.det_le
  rw [intDet_of_isDiagonal hdiagonal, maxUnitCells] at hdet
  obtain ⟨hx, hy, hz⟩ := hforward
  generalize s.rows.row1.x = a, s.rows.row2.y = b, s.rows.row3.z = c at *
  refine ⟨?_, fun v hv => ?_⟩
  · have hsize : (a + 1) * (b + 1) * (c + 1) ≤ 2 * a * (2 * b) * (2 * c) := by
      gcongr <;> omega
    rw [hbox, boxSize, maxScan, maxUnitCells]
    linarith
  · -- no edge is longer than the number of unit cells
    have ha : a ≤ a * (b * c) := le_mul_of_one_le_right hx.le (mul_pos hy hz)
    have hb : b ≤ b * (a * c) := le_mul_of_one_le_right hy.le (mul_pos hx hz)
    have hc : c ≤ c * (a * b) := le_mul_of_one_le_right hz.le (mul_pos hx hy)
    have hrange : 0 ≤ v ∧ v ≤ 10000000 := by
      simp only [hbox, Vec3.toList, List.cons_append, List.nil_append, List.mem_cons,
        List.not_mem_nil, or_false] at hv
      rcases hv with rfl | rfl | rfl | rfl | rfl | rfl
      all_goals constructor <;> linarith
    simp only [isInRange, Bool.and_eq_true, decide_eq_true_eq]
    omega

/-- A scan in exact arithmetic that can begin leads to what it finds. -/
theorem exists_scanPlaces_eq (h : s.IsScannable) :
    ∃ inverse, (s.scalars : Mat3 ℝ).inverse? = some inverse ∧
      (s.scanPlaces : Except (Error ℝ) _) =
        .ok (pointsInBox (cornerBox s.rows).1 (cornerBox s.rows).2 (holds inverse.transpose)) := by
  obtain ⟨inverse, hinverse, -⟩ := s.exists_inverse_real
  have hlength := (Mat3.isTransversal_of_reduced s.det_pos (nodup_pointsInBox _ _ _)
    (mem_scanned_iff hinverse)).length_eq s.det_pos
  have hrange : ((cornerBox s.rows).1.toList ++ (cornerBox s.rows).2.toList).find?
      (!ScalingMatrix.isInRange ·) = none := by
    rw [List.find?_eq_none]
    intro v hv
    simp [h.isInRange v hv]
  refine ⟨inverse, hinverse, ?_⟩
  unfold scanPlaces
  rw [hinverse]
  dsimp only
  rw [if_neg (not_lt.2 h.boxSize_le), hrange]
  exact if_pos hlength

/-- **Scanning finds the places in the box**, as they are counted. The scan goes over one more point
in each direction, and its test leaves these out. -/
theorem scanPlaces_of_isForward (hdiagonal : s.isDiagonal = true) (hforward : s.IsForward) :
    (s.scanPlaces : Except (Error ℝ) _) =
      .ok (boxPlaces ⟨s.rows.row1.x, s.rows.row2.y, s.rows.row3.z⟩) := by
  obtain ⟨inverse, hinverse, hscan⟩ :=
    exists_scanPlaces_eq (isScannable_of_isForward hdiagonal hforward)
  rw [hscan]
  congr 1
  refine Vec3.eq_of_lexLess (pairwise_pointsInBox _ _ _) (pairwise_pointsInBox _ _ _) fun p => ?_
  obtain ⟨hx, hy, hz⟩ := hforward
  have hrows := s.isDiagonal_iff.1 hdiagonal
  rw [mem_scanned_iff hinverse]
  generalize s.rows.row1.x = a, s.rows.row2.y = b, s.rows.row3.z = c at *
  rw [hrows]
  exact (mem_boxPlaces_iff_reduced (n := ⟨a, b, c⟩) hx hy hz).symm

end

/-- **Counting and scanning agree** on every matrix that repeats a unit cell along its vectors. The
box of the corners, one point larger in each direction, is always within the limit of a scan; in
exact arithmetic the scan succeeds, and its list is the one that is counted, in the same order. So
it makes no difference that places in such a matrix are counted and not scanned. -/
theorem counting_eq_scanning {α : Type} {n1 n2 n3 : Int} {s : ScalingMatrix}
    (h : (diagonal n1 n2 n3 : Except (Error α) _) = .ok s) :
    cornerBox s.rows = (⟨0, 0, 0⟩, ⟨n1, n2, n3⟩) ∧
      boxSize (cornerBox s.rows).1 (cornerBox s.rows).2 ≤ maxScan ∧
      boxPlaces ⟨n1, n2, n3⟩ = countedPlaces n1.toNat n2.toNat n3.toNat ∧
      (s.places : Except (Error Double) _) = .ok (boxPlaces ⟨n1, n2, n3⟩) ∧
      (s.scanPlaces : Except (Error ℝ) _) = .ok (boxPlaces ⟨n1, n2, n3⟩) := by
  obtain ⟨hdiagonal, hforward⟩ := isForward_of_diagonal h
  have hbox := cornerBox_of_isForward hdiagonal hforward
  have hsize := (isScannable_of_isForward hdiagonal hforward).boxSize_le
  have hplaces : (s.places : Except (Error Double) _) = .ok (boxPlaces _) := if_pos hdiagonal
  have hscan := scanPlaces_of_isForward hdiagonal hforward
  have hcounts : (⟨s.rows.row1.x, s.rows.row2.y, s.rows.row3.z⟩ : Vec3 Int) = ⟨n1, n2, n3⟩ := by
    rw [(rows_of_diagonal h).2]
  rw [hcounts] at hbox hplaces hscan
  exact ⟨hbox, hsize, boxPlaces_eq_countedPlaces _, hplaces, hscan⟩

theorem counting_eq_scanning_oblong :
    ∃ s, (diagonal 3 1 2 : Except (Error Double) _) = .ok s ∧
      (s.scanPlaces : Except (Error ℝ) _) = .ok (countedPlaces 3 1 2) ∧
      countedPlaces 3 1 2 =
        [⟨0, 0, 0⟩, ⟨0, 0, 1⟩, ⟨1, 0, 0⟩, ⟨1, 0, 1⟩, ⟨2, 0, 0⟩, ⟨2, 0, 1⟩] := by
  have h : (diagonal 3 1 2 : Except (Error Double) _) = .ok ⟨⟨⟨3, 0, 0⟩, ⟨0, 1, 0⟩, ⟨0, 0, 2⟩⟩,
    by decide, by decide⟩ := rfl
  obtain ⟨-, -, hcounted, -, hscan⟩ := counting_eq_scanning h
  exact ⟨_, h, hcounted ▸ hscan, rfl⟩

end ScalingMatrix

end Honeycomb
