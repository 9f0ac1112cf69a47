import Honeycomb.Proofs.Crystal.Parameters
import Honeycomb.Proofs.Crystal.Tiling
import Honeycomb.Proofs.Outcome

/-!
# Fractional and Cartesian coordinates

On every lattice that can be made the two kinds of coordinates lead to each other, in exact
arithmetic. A supercell is as many times larger as the determinant of its matrix says.

* `Mat3.IsInversion` — a way to invert matrices that fails for none whose determinant is not zero;
  `Mat3.isInversion_inverse?` — cofactors are such a way.
* `Mat3.toFractionalBy` — fractional coordinates by any way to invert matrices.
* `Lattice.Construction` — the ways to make a lattice, and `Lattice.Construction.rows` — the vectors
  that are asked for; `Lattice.Construction.matrix_eq_rows` — these are the vectors of the lattice.
* `Lattice.HasInverseCoordinates` — the two kinds of coordinates lead to each other.
* `UnitCell.exists_scaledLattice` — no matrix makes the vectors of a supercell too flat.

Principal result: `Lattice.coordinates_are_inverse`.
-/

set_option autoImplicit false

namespace Honeycomb

namespace Mat3

/-! ## Determinants -/

theorem det_transpose (m : Mat3 ℝ) : m.transpose.det = m.det := by
  simp only [det, transpose]
  ring

theorem det_mul (m n : Mat3 ℝ) : (m.mul n).det = m.det * n.det := by
  simp only [det, mul, mulVec, transpose, Vec3.dot]
  ring

/-! ## Inverses -/

/-- A way to invert matrices: it fails for no matrix whose determinant is not zero. -/
def IsInversion (invert : Mat3 ℝ → Option (Mat3 ℝ)) : Prop :=
  ∀ m, m.det ≠ 0 → ∃ n, invert m = some n ∧ n.mul m = one ∧ m.mul n = one

/-- **Cofactors invert every matrix whose determinant is not zero.** -/
theorem isInversion_inverse? : IsInversion inverse? := by
  intro m hdet
  obtain ⟨⟨a, b, c⟩, ⟨d, e, f⟩, ⟨g, h, i⟩⟩ := m
  have hbeq : ¬(Mat3.det ⟨⟨a, b, c⟩, ⟨d, e, f⟩, ⟨g, h, i⟩⟩ == (0 : ℝ)) = true := by
    simpa using hdet
  refine ⟨_, if_neg hbeq, ?_, ?_⟩
  all_goals
    simp only [mul, mulVec, transpose, Vec3.dot, one, Vec3.ex, Vec3.ey, Vec3.ez, Mat3.mk.injEq,
      Vec3.mk.injEq]
    -- sums of products with cofactors, over the determinant
    generalize hD : Mat3.det (α := ℝ) _ = D at hdet
    simp only [det] at hD
    refine ⟨⟨?_, ?_, ?_⟩, ⟨?_, ?_, ?_⟩, ?_, ?_, ?_⟩ <;> field_simp <;> linarith

/-- The coordinates of a position in units of the rows, by any way to invert matrices. -/
def toFractionalBy {α : Type} [Scalar α] (invert : Mat3 α → Option (Mat3 α)) (rows : Mat3 α)
    (position : Vec3 α) : Option (Vec3 α) :=
  (invert rows.transpose).map fun inverse => inverse.mulVec position

variable {invert : Mat3 ℝ → Option (Mat3 ℝ)} {rows : Mat3 ℝ}

/-- **Every position has coordinates in units of rows that span a volume, and they lead back to
it.** -/
theorem IsInversion.exists_fractional (hinvert : IsInversion invert) (hdet : rows.det ≠ 0)
    (position : Vec3 ℝ) :
    ∃ f, rows.toFractionalBy invert position = some f ∧ rows.toCartesian f = position := by
  rw [← det_transpose] at hdet
  obtain ⟨n, hn, -, hright⟩ := hinvert _ hdet
  refine ⟨n.mulVec position, ?_, ?_⟩
  · rw [toFractionalBy, hn]
    rfl
  · show rows.transpose.mulVec (n.mulVec position) = position
    rw [← mulVec_mul, hright, one_mulVec]

/-- **Coordinates are those of the position that they lead to.** -/
theorem IsInversion.toFractionalBy_toCartesian (hinvert : IsInversion invert) (hdet : rows.det ≠ 0)
    (f : Vec3 ℝ) : rows.toFractionalBy invert (rows.toCartesian f) = some f := by
  rw [← det_transpose] at hdet
  obtain ⟨n, hn, hleft, -⟩ := hinvert _ hdet
  rw [toFractionalBy, hn, Option.map_some, Option.some_inj]
  show n.mulVec (rows.transpose.mulVec f) = f
  rw [← mulVec_mul, hleft, one_mulVec]

end Mat3

namespace Lattice

/-! ## Lattices that are made -/

/-- A way to make a lattice: on three vectors, from lengths and angles, or by scaling one that was
made before. -/
inductive Construction where
  | vectors (a b c : Vec3 ℝ)
  | parameters (a b c alpha beta gamma : ℝ)
  | scaled (origin : Construction) (factors : Vec3 ℝ)

namespace Construction

/-- The lattice, or why it is refused. -/
noncomputable def make : Construction → Except (Error ℝ) (Lattice ℝ)
  | vectors a b c => ofVectors a b c
  | parameters a b c alpha beta gamma => ofParameters a b c alpha beta gamma
  | scaled origin factors => origin.make >>= fun l => l.scaled factors

/-- The vectors that are asked for. -/
noncomputable def rows : Construction → Mat3 ℝ
  | vectors a b c => ⟨a, b, c⟩
  | parameters a b c alpha beta gamma => parameterRows a b c alpha beta gamma
  | scaled origin factors =>
    ⟨origin.rows.row1 * factors.x, origin.rows.row2 * factors.y, origin.rows.row3 * factors.z⟩

/-- **A lattice that is made has the vectors that were asked for.** -/
theorem matrix_eq_rows {c : Construction} {l : Lattice ℝ} (h : c.make = .ok l) :
    l.matrix = c.rows := by
  induction c generalizing l with
  | vectors a b c => exact ofMatrix_eq_ok_iff.1 h
  | parameters a b c alpha beta gamma =>
    obtain ⟨-, -, -, hmatrix⟩ := ofParameters_eq_ok_iff.1 h
    exact hmatrix
  | scaled origin factors ih =>
    obtain ⟨l₀, horigin, hscaled⟩ := bind_eq_ok_iff.1 h
    have hmatrix := ofMatrix_eq_ok_iff.1 hscaled
    rw [ih horigin] at hmatrix
    exact hmatrix

end Construction

/-! ## Coordinates -/

/-- **The two kinds of coordinates lead to each other.** Every position has fractional coordinates,
and the vectors are the positions of the unit vectors. -/
structure HasInverseCoordinates (toCartesian : Vec3 ℝ → Vec3 ℝ)
    (toFractional? : Vec3 ℝ → Option (Vec3 ℝ)) (rows : Mat3 ℝ) : Prop where
  exists_fractional : ∀ x, ∃ f, toFractional? x = some f ∧ toCartesian f = x
  toFractional?_toCartesian : ∀ f, toFractional? (toCartesian f) = some f
  toCartesian_ex : toCartesian Vec3.ex = rows.row1
  toCartesian_ey : toCartesian Vec3.ey = rows.row2
  toCartesian_ez : toCartesian Vec3.ez = rows.row3

theorem hasInverseCoordinates (l : Lattice ℝ) {invert : Mat3 ℝ → Option (Mat3 ℝ)}
    (hinvert : Mat3.IsInversion invert) :
    HasInverseCoordinates l.toCartesian (l.matrix.toFractionalBy invert) l.matrix where
  exists_fractional := hinvert.exists_fractional l.det_ne_zero
  toFractional?_toCartesian := hinvert.toFractionalBy_toCartesian l.det_ne_zero
  toCartesian_ex := by
    simp [toCartesian, Mat3.toCartesian, Mat3.mulVec, Mat3.transpose, Vec3.dot, Vec3.ex]
  toCartesian_ey := by
    simp [toCartesian, Mat3.toCartesian, Mat3.mulVec, Mat3.transpose, Vec3.dot, Vec3.ey]
  toCartesian_ez := by
    simp [toCartesian, Mat3.toCartesian, Mat3.mulVec, Mat3.transpose, Vec3.dot, Vec3.ez]

end Lattice

/-! ## Supercells -/

/-- **The vectors of a supercell are never too flat**, and they span the volume of as many unit
cells as the determinant says. -/
theorem UnitCell.exists_scaledLattice (cell : UnitCell ℝ) (s : ScalingMatrix) :
    ∃ big, cell.scaledLattice s = .ok big ∧ big.volume = s.det * cell.lattice.volume := by
  have hdet : Scalar.abs (s.scalars.mul cell.lattice.matrix).det = s.det * cell.lattice.volume := by
    have hpos : (0 : ℝ) < s.rows.intDet := by exact_mod_cast s.det_pos
    rw [Mat3.det_mul, s.det_scalars_real, Scalar.abs_real, abs_mul, abs_of_pos hpos]
    rfl
  have hspans : ¬Scalar.abs (s.scalars.mul cell.lattice.matrix).det < 1e-12 := by
    have hone : (1 : ℝ) ≤ s.det := by exact_mod_cast s.det_pos
    have hcell : 1e-12 ≤ cell.lattice.volume := not_lt.1 cell.lattice.spans
    have htiny : (0 : ℝ) ≤ 1e-12 := by norm_num
    rw [hdet, not_lt]
    nlinarith
  exact ⟨⟨_, hspans⟩, Lattice.ofMatrix_eq_ok_iff.2 rfl, hdet⟩

/-- A supercell that is made has these vectors. -/
theorem UnitCell.scaledLattice_of_tile {cell : UnitCell ℝ} {s : ScalingMatrix}
    {supercell : Supercell ℝ} (h : cell.tile s = .ok supercell) :
    cell.scaledLattice s = .ok supercell.lattice := by
  obtain ⟨big, hbig, h⟩ := bind_eq_ok_iff.1 h
  obtain ⟨places, -, h⟩ := bind_eq_ok_iff.1 h
  cases h
  exact hbig

namespace Lattice

/-- **Fractional and Cartesian coordinates are inverse** on every lattice that can be made, however
oblique: the bound on the determinant that the constructors ask for is all that inverting needs.
This is so for every way to invert matrices that fails for none with a determinant other than zero.
The vectors of a supercell always make a lattice, whose volume is that of the unit cell times the
determinant. -/
theorem coordinates_are_inverse {c : Construction} {l : Lattice ℝ} (h : c.make = .ok l) :
    HasInverseCoordinates l.toCartesian l.toFractional? c.rows ∧
      (∀ invert, Mat3.IsInversion invert →
        HasInverseCoordinates l.toCartesian (l.matrix.toFractionalBy invert) c.rows) ∧
      ∀ (basis : List (Atom ℝ)) (s : ScalingMatrix),
        (∃ big, (⟨l, basis⟩ : UnitCell ℝ).scaledLattice s = .ok big ∧
          big.volume = s.det * l.volume) ∧
        ∀ supercell, (⟨l, basis⟩ : UnitCell ℝ).tile s = .ok supercell →
          supercell.lattice.volume = s.det * l.volume := by
  rw [← Construction.matrix_eq_rows h]
  refine ⟨l.hasInverseCoordinates Mat3.isInversion_inverse?, ?_, ?_⟩
  · intro invert hinvert
    exact l.hasInverseCoordinates hinvert
  · intro basis s
    obtain ⟨big, hbig, hvolume⟩ := UnitCell.exists_scaledLattice ⟨l, basis⟩ s
    refine ⟨⟨big, hbig, hvolume⟩, ?_⟩
    intro supercell hsupercell
    have hlattice := UnitCell.scaledLattice_of_tile hsupercell
    rw [hbig, Except.ok.injEq] at hlattice
    rw [← hlattice, hvolume]

/-- An oblique cell, with one of its vectors turned around and two of them stretched. -/
theorem coordinates_are_inverse_oblique : ∃ l,
    (Construction.scaled (.vectors ⟨4, 0, 0⟩ ⟨2, 3, 0⟩ ⟨1, -1, 5⟩) ⟨2, -1, 3⟩).make = .ok l ∧
    l.toCartesian Vec3.ey = ⟨-2, -3, 0⟩ ∧
      l.toFractional? (l.toCartesian ⟨1, 2, 3⟩) = some ⟨1, 2, 3⟩ ∧
        ∃ big, (⟨l, []⟩ : UnitCell ℝ).scaledLattice ⟨⟨⟨2, 1, 0⟩, ⟨-1, 3, 1⟩, ⟨0, -2, 1⟩⟩,
          by decide, by decide⟩ = .ok big ∧ big.volume = 11 * l.volume := by
  let unscaled : Lattice ℝ := ⟨⟨⟨4, 0, 0⟩, ⟨2, 3, 0⟩, ⟨1, -1, 5⟩⟩, by norm_num [Mat3.det]⟩
  let l : Lattice ℝ :=
    ⟨⟨unscaled.matrix.row1 * (2 : ℝ), unscaled.matrix.row2 * (-1 : ℝ),
      unscaled.matrix.row3 * (3 : ℝ)⟩, by norm_num [Mat3.det, unscaled, Vec3.mul_mk]⟩
  have hmake : (Construction.scaled (.vectors ⟨4, 0, 0⟩ ⟨2, 3, 0⟩ ⟨1, -1, 5⟩) ⟨2, -1, 3⟩).make =
      .ok l :=
    bind_eq_ok_iff.2 ⟨unscaled, ofMatrix_eq_ok_iff.2 rfl, ofMatrix_eq_ok_iff.2 rfl⟩
  obtain ⟨hcoordinates, -, hsupercells⟩ := coordinates_are_inverse hmake
  obtain ⟨⟨big, hbig, hvolume⟩, -⟩ :=
    hsupercells [] ⟨⟨⟨2, 1, 0⟩, ⟨-1, 3, 1⟩, ⟨0, -2, 1⟩⟩, by decide, by decide⟩
  refine ⟨l, hmake, ?_, hcoordinates.toFractional?_toCartesian _, big, hbig, ?_⟩
  · rw [hcoordinates.toCartesian_ey]
    norm_num [Construction.rows, Vec3.mul_mk]
  · rw [hvolume]
    norm_num [ScalingMatrix.det, Mat3.intDet]

end Lattice

end Honeycomb
