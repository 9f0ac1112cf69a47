import Honeycomb.Crystal.Supercell
import Honeycomb.Proofs.Crystal.Sublattice
import Honeycomb.Proofs.Lists
import Honeycomb.Proofs.Geometry.Vec3

/-!
# Tilings

Whether the atoms of a supercell are those of the crystal.

* `mem_cornerBox_of_reduced` — the box of the corners holds every point of the cell of the rows.
* `isInside_iff_of_mul` — in exact arithmetic the slack of the test is too small to misjudge a point.
* `ScalingMatrix.IsForward` — the entries of a diagonal matrix are positive;
  `ScalingMatrix.Distinguishes` — an arithmetic passes no two points of one class.
* `UnitCell.IsTiledBy` — atoms that repeat on the vectors of a supercell are the whole crystal of a
  unit cell, none of it twice.

Principal results: `places_isTransversal_iff` — when the places of the unit cells are one of each
class; `isTiledBy_copies` — then the copies of the atoms tile the crystal;
`tile_preserves_crystal_iff` — both for a whole supercell. A diagonal matrix with negative entries
is accepted and has no places at all (`tile_backward_eq_nil`).
-/

set_option autoImplicit false

namespace Honeycomb

/-! ## Points in boxes -/

theorem nodup_integersFromTo (lo hi : Int) : (integersFromTo lo hi).Nodup := by
  refine List.Nodup.map ?_ List.nodup_range
  intro a b h
  dsimp only at h
  omega

theorem nodup_pointsInBox (lo hi : Vec3 Int) (keep : Vec3 Int → Bool) :
    (pointsInBox lo hi keep).Nodup := by
  unfold pointsInBox
  rw [List.nodup_flatMap]
  refine ⟨fun i _ => ?_, ?_⟩
  · rw [List.nodup_flatMap]
    refine ⟨fun j _ => ?_, ?_⟩
    · refine ((nodup_integersFromTo _ _).map fun a b h => ?_).filter _
      exact (Vec3.mk.injEq .. ▸ h).2.2
    · refine (nodup_integersFromTo _ _).imp fun {a b} hab => ?_
      rw [Function.onFun, List.disjoint_left]
      intro p hp hp'
      simp only [List.mem_filter, List.mem_map] at hp hp'
      obtain ⟨⟨k, -, rfl⟩, -⟩ := hp
      obtain ⟨⟨l, -, hl⟩, -⟩ := hp'
      exact hab (Vec3.mk.injEq .. ▸ hl).2.1.symm
  · refine (nodup_integersFromTo _ _).imp fun {a b} hab => ?_
    rw [Function.onFun, List.disjoint_left]
    intro p hp hp'
    simp only [List.mem_flatMap, List.mem_filter, List.mem_map] at hp hp'
    obtain ⟨j, -, ⟨k, -, rfl⟩, -⟩ := hp
    obtain ⟨j', -, ⟨l, -, hl⟩, -⟩ := hp'
    exact hab (Vec3.mk.injEq .. ▸ hl).1.symm

/-- What is chosen from a list, one after the other, is on one side of the start and of all that
was to choose from. -/
theorem foldl_isBound (op : Int → Int → Int) (R : Int → Int → Prop) (hrefl : ∀ a, R a a)
    (htrans : ∀ a b c, R a b → R b c → R a c) (hleft : ∀ a b, R (op a b) a)
    (hright : ∀ a b, R (op a b) b) (f : Vec3 Int → Int) {p : Vec3 Int} :
    ∀ (ps : List (Vec3 Int)) (a : Int), R (ps.foldl (fun a p => op a (f p)) a) a ∧
      (p ∈ ps → R (ps.foldl (fun a p => op a (f p)) a) (f p))
  | [], a => ⟨hrefl a, fun h => absurd h List.not_mem_nil⟩
  | q :: ps, a => by
    obtain ⟨h, hmem⟩ := foldl_isBound op R hrefl htrans hleft hright f ps (op a (f q))
    rw [List.foldl_cons]
    refine ⟨htrans _ _ _ h (hleft _ _), fun hp => ?_⟩
    rcases List.mem_cons.1 hp with rfl | hp
    · exact htrans _ _ _ h (hright _ _)
    · exact hmem hp

theorem foldl_min_le (f : Vec3 Int → Int) {p : Vec3 Int} {ps : List (Vec3 Int)} (h : p ∈ ps)
    (a : Int) : ps.foldl (fun a p => min a (f p)) a ≤ f p :=
  (foldl_isBound min (· ≤ ·) le_refl (fun _ _ _ => le_trans) min_le_left min_le_right f ps a).2 h

theorem le_foldl_max (f : Vec3 Int → Int) {p : Vec3 Int} {ps : List (Vec3 Int)} (h : p ∈ ps)
    (a : Int) : f p ≤ ps.foldl (fun a p => max a (f p)) a :=
  (foldl_isBound max (· ≥ ·) le_refl (fun _ _ _ => ge_trans) le_max_left le_max_right f ps a).2 h

namespace ScalingMatrix

/-! ## The box of the corners -/

/-- The part of a number that is chosen: all of it or nothing. -/
def chosen (b : Bool) (a : Int) : Int :=
  if b then a else 0

theorem corner_eq (m : Mat3 Int) (a b c : Bool) :
    corner m a b c =
      ⟨chosen a m.row1.x + chosen b m.row2.x + chosen c m.row3.x,
        chosen a m.row1.y + chosen b m.row2.y + chosen c m.row3.y,
        chosen a m.row1.z + chosen b m.row2.z + chosen c m.row3.z⟩ := by
  cases a <;> cases b <;> cases c <;> rfl

theorem corner_mem_corners (m : Mat3 Int) (a b c : Bool) : corner m a b c ∈ corners m := by
  cases a <;> cases b <;> cases c <;> simp [corners]

/-- A mean of three numbers with weights between zero and `d` is at least a sum of some of the
numbers. -/
theorem exists_chosen_le {d a b c u v w p : Int} (hd : 0 < d) (hu : 0 ≤ u ∧ u < d)
    (hv : 0 ≤ v ∧ v < d) (hw : 0 ≤ w ∧ w < d) (h : u * a + v * b + w * c = d * p) :
    ∃ x y z, chosen x a + chosen y b + chosen z c ≤ p := by
  have part (a u : Int) (hu : 0 ≤ u ∧ u < d) : ∃ x, d * chosen x a ≤ u * a := by
    by_cases ha : 0 ≤ a
    · exact ⟨false, by simpa [chosen] using mul_nonneg hu.1 ha⟩
    · exact ⟨true, by simpa [chosen] using mul_le_mul_of_nonpos_right hu.2.le (by omega : a ≤ 0)⟩
  obtain ⟨x, hx⟩ := part a u hu
  obtain ⟨y, hy⟩ := part b v hv
  obtain ⟨z, hz⟩ := part c w hw
  refine ⟨x, y, z, le_of_mul_le_mul_left ?_ hd⟩
  linarith

/-- Such a mean lies between the bounds of all these sums. -/
theorem between_of_chosen {d a b c u v w p lo hi : Int} (hd : 0 < d) (hu : 0 ≤ u ∧ u < d)
    (hv : 0 ≤ v ∧ v < d) (hw : 0 ≤ w ∧ w < d) (h : u * a + v * b + w * c = d * p)
    (hlo : ∀ x y z, lo ≤ chosen x a + chosen y b + chosen z c)
    (hhi : ∀ x y z, chosen x a + chosen y b + chosen z c ≤ hi) : lo ≤ p ∧ p ≤ hi := by
  have hneg (x : Bool) (a : Int) : chosen x (-a) = -chosen x a := by
    cases x <;> simp [chosen]
  constructor
  · obtain ⟨x, y, z, hle⟩ := exists_chosen_le hd hu hv hw h
    exact (hlo x y z).trans hle
  · -- from above, the numbers with the other sign
    obtain ⟨x, y, z, hle⟩ := exists_chosen_le (a := -a) (b := -b) (c := -c) (p := -p) hd hu hv hw
      (by linarith)
    rw [hneg, hneg, hneg] at hle
    have := hhi x y z
    omega

/-- **The box of the corners holds the whole cell.** -/
theorem mem_cornerBox_of_reduced {m : Mat3 Int} (hdet : 0 < m.intDet) {p : Vec3 Int}
    (hp : m.IsReduced p) :
    ((cornerBox m).1.x ≤ p.x ∧ p.x ≤ (cornerBox m).2.x) ∧
      ((cornerBox m).1.y ≤ p.y ∧ p.y ≤ (cornerBox m).2.y) ∧
        ((cornerBox m).1.z ≤ p.z ∧ p.z ≤ (cornerBox m).2.z) := by
  have hcomb := m.combine_numerators p
  rw [Mat3.combine, Vec3.map, Vec3.mk.injEq] at hcomb
  obtain ⟨hx, hy, hz⟩ := hcomb
  obtain ⟨hu, hv, hw⟩ := hp
  have hlo (f : Vec3 Int → Int) (a b c : Bool) :
      (corners m).foldl (fun l p => min l (f p)) 0 ≤ f (corner m a b c) :=
    foldl_min_le f (corner_mem_corners m a b c) 0
  have hhi (f : Vec3 Int → Int) (a b c : Bool) :
      f (corner m a b c) ≤ (corners m).foldl (fun l p => max l (f p)) 0 :=
    le_foldl_max f (corner_mem_corners m a b c) 0
  simp only [corner_eq] at hlo hhi
  exact ⟨between_of_chosen hdet hu hv hw hx (hlo (·.x)) (hhi (·.x)),
    between_of_chosen hdet hu hv hw hy (hlo (·.y)) (hhi (·.y)),
    between_of_chosen hdet hu hv hw hz (hlo (·.z)) (hhi (·.z))⟩

/-! ## The test in exact arithmetic -/

/-- The slack of the test is smaller than the least distance of a point from a side. -/
theorem isInside_iff_of_mul {k d : Int} (hd : 0 < d) (hmax : d ≤ maxUnitCells) {x : ℝ}
    (hx : x * d = k) : isInside x = true ↔ 0 ≤ k ∧ k < d := by
  have hd' : (0 : ℝ) < d := by exact_mod_cast hd
  have hmax' : (d : ℝ) ≤ 10000000 := by exact_mod_cast hmax
  rw [eq_div_of_mul_eq hd'.ne' hx]
  simp only [isInside, Bool.and_eq_true, decide_eq_true_eq, le_div_iff₀ hd', div_lt_iff₀ hd']
  constructor
  · rintro ⟨hlo, hhi⟩
    constructor
    · -- a numerator below zero is at most minus one
      by_contra hk
      have : (k : ℝ) ≤ -1 := by exact_mod_cast (by omega : k ≤ -1)
      norm_num at hlo
      linarith
    · by_contra hk
      have : (d : ℝ) ≤ k := by exact_mod_cast (by omega : d ≤ k)
      norm_num at hhi
      linarith
  · rintro ⟨hlo, hhi⟩
    have hlo' : (0 : ℝ) ≤ k := by exact_mod_cast hlo
    have hhi' : (k : ℝ) ≤ d - 1 := by exact_mod_cast (by omega : k ≤ d - 1)
    constructor
    · norm_num
      linarith
    · norm_num
      linarith

theorem det_scalars_real (s : ScalingMatrix) : (s.scalars : Mat3 ℝ).det = s.rows.intDet := by
  simp only [Mat3.det, scalars, Mat3.map, Vec3.map, Scalar.ofInt_real, Mat3.intDet]
  push_cast
  ring

/-- In exact arithmetic the test tells the points of the cell from all others. -/
theorem exists_inverse_real (s : ScalingMatrix) :
    ∃ inverse, (s.scalars : Mat3 ℝ).inverse? = some inverse ∧
      ∀ p, holds inverse.transpose p = true ↔ s.rows.IsReduced p := by
  have hdet : (s.scalars : Mat3 ℝ).det = s.rows.intDet := s.det_scalars_real
  have hne : ((s.scalars : Mat3 ℝ).det == 0) ≠ true := by
    rw [hdet]
    simpa using s.det_pos.ne'
  refine ⟨_, by rw [Mat3.inverse?, if_neg hne], fun p => ?_⟩
  have side {e : ℝ} {k : Int} (h : e = (k : ℝ) / s.rows.intDet) :
      isInside e = true ↔ 0 ≤ k ∧ k < s.rows.intDet := by
    have hne : (s.rows.intDet : ℝ) ≠ 0 := by exact_mod_cast s.det_pos.ne'
    apply isInside_iff_of_mul s.det_pos s.det_le
    rw [h, div_mul_cancel₀ _ hne]
  unfold holds Mat3.IsReduced
  rw [Bool.and_eq_true, Bool.and_eq_true, and_assoc]
  refine and_congr (side ?_) (and_congr (side ?_) (side ?_))
  all_goals
    change _ / (s.scalars : Mat3 ℝ).det * _ + _ / (s.scalars : Mat3 ℝ).det * _
      + _ / (s.scalars : Mat3 ℝ).det * _ = _
    rw [hdet]
    simp only [scalars, Mat3.map, Vec3.map, Scalar.ofInt_real, Mat3.numerators]
    push_cast
    ring

/-! ## Places -/

section

variable {α : Type} [Scalar α] {s : ScalingMatrix} {places : List (Vec3 Int)}

/-- What a scan has found when it succeeds: as many points of the corner box as the determinant
says, each once, and exactly those that pass the test. -/
theorem scanPlaces_ok (h : (s.scanPlaces : Except (Error α) _) = .ok places) :
    ∃ inverse, (s.scalars : Mat3 α).inverse? = some inverse ∧
      places = pointsInBox (cornerBox s.rows).1 (cornerBox s.rows).2 (holds inverse.transpose) ∧
        (places.length : Int) = s.det := by
  unfold scanPlaces at h
  split at h
  · cases h
  · rename_i inverse hinverse
    dsimp only at h
    split at h
    · cases h
    · split at h
      · cases h
      · split at h
        · rename_i hlen
          cases h
          exact ⟨inverse, hinverse, rfl, hlen⟩
        · cases h

/-- The diagonal entries are positive. -/
def IsForward (s : ScalingMatrix) : Prop :=
  0 < s.rows.row1.x ∧ 0 < s.rows.row2.y ∧ 0 < s.rows.row3.z

/-- In the given arithmetic the test passes no two congruent points of the corner box. -/
def Distinguishes (α : Type) [Scalar α] (s : ScalingMatrix) : Prop :=
  ∀ inverse, (s.scalars : Mat3 α).inverse? = some inverse →
    s.rows.IsSeparated
      (pointsInBox (cornerBox s.rows).1 (cornerBox s.rows).2 (holds inverse.transpose))

/-- Exact arithmetic finds the reduced points in the box of the corners. -/
theorem mem_scanned_iff {inverse : Mat3 ℝ} (h : (s.scalars : Mat3 ℝ).inverse? = some inverse)
    (p : Vec3 Int) :
    p ∈ pointsInBox (cornerBox s.rows).1 (cornerBox s.rows).2 (holds inverse.transpose) ↔
      s.rows.IsReduced p := by
  obtain ⟨inverse', hinverse', hholds⟩ := s.exists_inverse_real
  cases h.symm.trans hinverse'
  rw [mem_pointsInBox, hholds]
  exact and_iff_right_of_imp (mem_cornerBox_of_reduced s.det_pos)

/-- Exact arithmetic passes one point of each class. -/
theorem distinguishes_real (s : ScalingMatrix) : s.Distinguishes ℝ := by
  intro inverse hinverse
  have htrans := Mat3.isTransversal_of_reduced s.det_pos (nodup_pointsInBox _ _ _)
    (mem_scanned_iff hinverse)
  exact (Mat3.isTransversal_iff_separated s.det_pos (htrans.length_eq s.det_pos)).1 htrans

theorem isDiagonal_iff (s : ScalingMatrix) :
    s.isDiagonal = true ↔ s.rows = ⟨⟨s.rows.row1.x, 0, 0⟩, ⟨0, s.rows.row2.y, 0⟩,
      ⟨0, 0, s.rows.row3.z⟩⟩ := by
  obtain ⟨⟨⟨a, b, c⟩, ⟨d, e, f⟩, g, h, i⟩, _, _⟩ := s
  simp [isDiagonal]
  tauto

theorem mem_boxPlaces {n p : Vec3 Int} :
    p ∈ boxPlaces n ↔ (0 ≤ p.x ∧ p.x < n.x) ∧ (0 ≤ p.y ∧ p.y < n.y) ∧ 0 ≤ p.z ∧ p.z < n.z := by
  simp only [boxPlaces, mem_pointsInBox, Vec3.map, and_true, Int.le_sub_one_iff]

/-- The places in a box are the reduced points of the diagonal matrix. -/
theorem mem_boxPlaces_iff_reduced {n p : Vec3 Int} (hx : 0 < n.x) (hy : 0 < n.y) (hz : 0 < n.z) :
    p ∈ boxPlaces n ↔ Mat3.IsReduced ⟨⟨n.x, 0, 0⟩, ⟨0, n.y, 0⟩, ⟨0, 0, n.z⟩⟩ p := by
  have side {a b c : Int} (hb : 0 < b) : (0 ≤ a * b ∧ a * b < c * b) ↔ 0 ≤ a ∧ a < c := by
    rw [mul_lt_mul_iff_left₀ hb, mul_nonneg_iff_of_pos_right hb]
  rw [mem_boxPlaces, Mat3.IsReduced]
  simp only [Mat3.numerators, Mat3.intDet]
  rw [← side (a := p.x) (mul_pos hy hz), ← side (a := p.y) (mul_pos hx hz),
    ← side (a := p.z) (mul_pos hx hy)]
  ring_nf

/-- The places in a box are a transversal when the box is not empty, and otherwise there are
none. -/
theorem boxPlaces_isTransversal_iff (hs : s.isDiagonal = true) :
    s.rows.IsTransversal (boxPlaces ⟨s.rows.row1.x, s.rows.row2.y, s.rows.row3.z⟩) ↔
      s.IsForward := by
  constructor
  · intro h
    obtain ⟨i, -, -⟩ := h ⟨0, 0, 0⟩
    have hmem := List.getElem_mem i.isLt
    rw [mem_boxPlaces] at hmem
    obtain ⟨⟨hx, hx'⟩, ⟨hy, hy'⟩, hz, hz'⟩ := hmem
    exact ⟨hx.trans_lt hx', hy.trans_lt hy', hz.trans_lt hz'⟩
  · rintro ⟨hx, hy, hz⟩
    refine Mat3.isTransversal_of_reduced s.det_pos (nodup_pointsInBox _ _ _) fun p => ?_
    have hrows := s.isDiagonal_iff.1 hs
    generalize s.rows.row1.x = a, s.rows.row2.y = b, s.rows.row3.z = c at *
    rw [hrows]
    exact mem_boxPlaces_iff_reduced (n := ⟨a, b, c⟩) hx hy hz

/-- **When the places are one of each class**: for a diagonal matrix when it is forward, for any
other one when the test distinguishes its points. -/
theorem places_isTransversal_iff (h : (s.places : Except (Error α) _) = .ok places) :
    s.rows.IsTransversal places ↔
      (s.isDiagonal = true → s.IsForward) ∧ (s.isDiagonal = false → s.Distinguishes α) := by
  unfold ScalingMatrix.places at h
  split at h
  · rename_i hs
    cases h
    rw [boxPlaces_isTransversal_iff hs]
    simp [hs]
  · rename_i hs
    obtain ⟨inverse, hinverse, rfl, hlen⟩ := scanPlaces_ok h
    rw [Mat3.isTransversal_iff_separated s.det_pos hlen]
    constructor
    · intro hsep
      refine ⟨fun hs' => absurd hs' hs, fun _ inverse' hinverse' => ?_⟩
      cases hinverse.symm.trans hinverse'
      exact hsep
    · rintro ⟨-, hdist⟩
      exact hdist (by simpa using hs) inverse hinverse

end

end ScalingMatrix

/-! ## Crystals -/

namespace Mat3

/-- The vectors of a supercell lead to the combinations of the rows of its matrix. -/
theorem shift_scalars_mul (s : ScalingMatrix) (m : Mat3 ℝ) (w : Vec3 Int) :
    (s.scalars.mul m).shift w = m.shift (s.rows.combine w) := by
  simp only [shift_eq, Mat3.mul, Mat3.transpose, Mat3.mulVec, Vec3.dot, ScalingMatrix.scalars,
    Mat3.map, Vec3.map, Scalar.ofInt_real, combine, Vec3.mk.injEq]
  push_cast
  refine ⟨?_, ?_, ?_⟩ <;> ring

theorem shift_moved (m : Mat3 ℝ) (s : Mat3 Int) (p w : Vec3 Int) :
    m.shift (s.moved p w) = m.shift p + m.shift (s.combine w) := by
  simp only [shift_eq, moved, Vec3.zipWith, Vec3.add_mk, Vec3.mk.injEq]
  push_cast
  refine ⟨?_, ?_, ?_⟩ <;> ring

end Mat3

theorem Lattice.det_ne_zero (l : Lattice ℝ) : l.matrix.det ≠ 0 := by
  intro h
  apply l.spans
  rw [h, Scalar.abs_real, abs_zero]
  norm_num

namespace UnitCell

/-- **The atoms tile the crystal of a cell**: each translate of each atom of the cell is one of
its copies among them, moved by a combination of the vectors of the supercell, in one way only. -/
def IsTiledBy (cell : UnitCell ℝ) (s : ScalingMatrix) (atoms : List (Atom ℝ)) : Prop :=
  ∀ k a, cell.basis[k]? = some a → ∀ z : Vec3 Int,
    ∃! iw : Nat × Vec3 Int, ∃ b, atoms[iw.1 * cell.basis.length + k]? = some b ∧
      b = { a with position := b.position } ∧
        a.position + cell.shiftTo z =
          b.position + (s.scalars.mul cell.lattice.matrix).shift iw.2

theorem length_copies {α : Type} [Scalar α] (cell : UnitCell α) (places : List (Vec3 Int)) :
    (cell.copies places).length = places.length * cell.basis.length := by
  simp [copies, List.length_flatMap, List.map_const', List.sum_replicate]

theorem getElem?_copies {α : Type} [Scalar α] (cell : UnitCell α) (places : List (Vec3 Int))
    {k : Nat} {a : Atom α} (hk : cell.basis[k]? = some a) (i : Nat) :
    (cell.copies places)[i * cell.basis.length + k]? =
      places[i]?.map fun p => { a with position := a.position + cell.shiftTo p } := by
  obtain ⟨hlt, rfl⟩ := List.getElem?_eq_some_iff.1 hk
  rw [Nat.mul_comm, copies, getElem?_flatMap_of_length (fun _ => List.length_map _) hlt]
  cases places[i]? with
  | none => rfl
  | some p => simp [hlt]

/-- Copies at one place of each class tile the crystal. -/
theorem isTiledBy_copies {s : ScalingMatrix} {places : List (Vec3 Int)}
    (h : s.rows.IsTransversal places) (cell : UnitCell ℝ) :
    cell.IsTiledBy s (cell.copies places) := by
  intro k a hk z
  have key (p w : Vec3 Int) : a.position + cell.shiftTo z =
      (a.position + cell.shiftTo p) + (s.scalars.mul cell.lattice.matrix).shift w ↔
        z = s.rows.moved p w := by
    have hshift (v : Vec3 Int) : cell.shiftTo v = cell.lattice.matrix.shift v := rfl
    rw [add_assoc, add_right_inj, Mat3.shift_scalars_mul, hshift, hshift, ← Mat3.shift_moved]
    exact (Mat3.shift_injective cell.lattice.det_ne_zero).eq_iff
  obtain ⟨i, ⟨w, hw⟩, huniq⟩ := h z
  simp only [getElem?_copies cell places hk, Option.map_eq_some_iff]
  refine ⟨(i, w), ?_, ?_⟩
  · refine ⟨_, ⟨places[i], by simp, rfl⟩, rfl, (key _ _).2 hw⟩
  · rintro ⟨j, v⟩ ⟨_, ⟨p, hp, rfl⟩, -, hpos⟩
    obtain ⟨hj, rfl⟩ := List.getElem?_eq_some_iff.1 hp
    have hv := (key _ _).1 hpos
    have hij := huniq ⟨j, hj⟩ ⟨v, hv⟩
    subst hij
    rw [Mat3.moved_injective s.det_pos (hw.symm.trans hv)]

end UnitCell

/-- **Tiling preserves the crystal, and when.** A supercell consists of the atoms of its unit cell
at some places. They are one of each class modulo the rows of its matrix if and only if the matrix,
when it is diagonal, has positive entries, and the arithmetic, when it is not, tells the points of
the cell from all others. Exact arithmetic always does. One place of each class means as many atoms
as the determinant says, and in exact arithmetic that they tile the crystal. -/
theorem tile_preserves_crystal_iff {α : Type} [Scalar α] {cell : UnitCell α} {s : ScalingMatrix}
    {supercell : Supercell α} (h : cell.tile s = .ok supercell) :
    ∃ places, (s.places : Except (Error α) _) = .ok places ∧
      supercell.atoms = cell.copies places ∧
      supercell.lattice.matrix = s.scalars.mul cell.lattice.matrix ∧
      (s.rows.IsTransversal places ↔
        (s.isDiagonal = true → s.IsForward) ∧ (s.isDiagonal = false → s.Distinguishes α)) ∧
      s.Distinguishes ℝ ∧
      (s.rows.IsTransversal places →
        (supercell.atoms.length : Int) = s.det * cell.basis.length ∧
          ∀ exact : UnitCell ℝ, exact.IsTiledBy s (exact.copies places)) := by
  unfold UnitCell.tile UnitCell.scaledLattice Lattice.ofMatrix at h
  split at h
  · cases h
  · cases hplaces : (s.places : Except (Error α) _) with
    | error e =>
      rw [hplaces] at h
      cases h
    | ok places =>
      rw [hplaces] at h
      cases h
      refine ⟨places, rfl, rfl, rfl, s.places_isTransversal_iff hplaces, s.distinguishes_real,
        fun htrans => ⟨?_, fun exact => exact.isTiledBy_copies htrans⟩⟩
      rw [cell.length_copies, Nat.cast_mul, htrans.length_eq s.det_pos]
      rfl

/-- Two atoms in a cubic cell. -/
def cubicCell : UnitCell Double :=
  .ofFractional ⟨Mat3.one, by decide +kernel⟩ [("C", ⟨0, 0, 0⟩), ("N", ⟨0.5, 0.5, 0.5⟩)]

/-- A matrix that turns the vectors in the plane and makes them longer. -/
def turnedScaling : ScalingMatrix :=
  ⟨⟨⟨1, 1, 0⟩, ⟨-1, 1, 0⟩, ⟨0, 0, 1⟩⟩, by decide, by decide⟩

theorem tile_preserves_crystal_turned :
    ∃ supercell places, cubicCell.tile turnedScaling = .ok supercell ∧
      supercell.atoms = cubicCell.copies places ∧
      (turnedScaling.rows.IsTransversal places ↔
        (turnedScaling.isDiagonal = true → turnedScaling.IsForward) ∧
          (turnedScaling.isDiagonal = false → turnedScaling.Distinguishes Double)) := by
  have hok : (cubicCell.tile turnedScaling).isOk = true := by decide +kernel
  cases h : cubicCell.tile turnedScaling with
  | error e =>
    rw [h] at hok
    cases hok
  | ok supercell =>
    obtain ⟨places, -, hatoms, -, hiff, -⟩ := tile_preserves_crystal_iff h
    exact ⟨supercell, places, rfl, hatoms, hiff⟩

/-- A matrix that turns two vectors around. -/
def backwardScaling : ScalingMatrix :=
  ⟨⟨⟨-1, 0, 0⟩, ⟨0, -1, 0⟩, ⟨0, 0, 1⟩⟩, by decide, by decide⟩

/-- **A backward diagonal matrix loses all atoms.** It stands for one unit cell of two atoms, but
there is no place in its supercell. -/
theorem tile_backward_eq_nil :
    ∃ supercell, cubicCell.tile backwardScaling = .ok supercell ∧ supercell.atoms = [] ∧
      backwardScaling.det * cubicCell.basis.length = 2 ∧
        ¬ backwardScaling.rows.IsTransversal [] := by
  have hlen : (cubicCell.tile backwardScaling).toOption.map (·.atoms.length) = some 0 := by
    decide +kernel
  cases h : cubicCell.tile backwardScaling with
  | error e =>
    rw [h] at hlen
    cases hlen
  | ok supercell =>
    rw [h] at hlen
    refine ⟨supercell, rfl, List.length_eq_zero_iff.1 (Option.some.inj hlen), rfl, fun htrans => ?_⟩
    obtain ⟨i, -, -⟩ := htrans ⟨0, 0, 0⟩
    exact i.elim0

end Honeycomb
