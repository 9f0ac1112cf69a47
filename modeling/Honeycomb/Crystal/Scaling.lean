import Honeycomb.Error
import Honeycomb.Geometry.Mat3

/-!
# Scaling matrices

* `Mat3.intDet` — the determinant of a matrix of integers.
* `ScalingMatrix` — the vectors of a supercell in units of the vectors of its unit cell. The
  determinant is the number of unit cells, so it is positive; it is also bounded.
* `ScalingMatrix.ofRows`, `ScalingMatrix.diagonal` — a matrix, or three repeat counts.
-/

set_option autoImplicit false

namespace Honeycomb

/-- The determinant, expanded along the first row. -/
def Mat3.intDet (m : Mat3 Int) : Int :=
  m.row1.x * (m.row2.y * m.row3.z - m.row2.z * m.row3.y)
    - m.row1.y * (m.row2.x * m.row3.z - m.row2.z * m.row3.x)
    + m.row1.z * (m.row2.x * m.row3.y - m.row2.y * m.row3.x)

/-- The greatest number of unit cells in a supercell. -/
def maxUnitCells : Int := 10000000

/-- A matrix that can tile a crystal. -/
structure ScalingMatrix where
  rows : Mat3 Int
  det_pos : 0 < rows.intDet
  det_le : rows.intDet ≤ maxUnitCells
deriving DecidableEq

namespace ScalingMatrix

/-- The matrix with given rows, when its determinant allows it. -/
def ofRows {α : Type} (rows : Mat3 Int) : Except (Error α) ScalingMatrix :=
  let det := rows.intDet
  if hpos : 0 < det then
    if hle : det ≤ maxUnitCells then .ok ⟨rows, hpos, hle⟩
    else .error (.parameter (.scalingTooLarge det maxUnitCells))
  else .error (.parameter (.scalingDeterminant det (rows.rows.map Vec3.toList)))

/-- The matrix that repeats a unit cell along each of its vectors. -/
def diagonal {α : Type} (n1 n2 n3 : Int) : Except (Error α) ScalingMatrix :=
  if n1 < 1 then .error (.parameter (.repeatCount "n1" n1))
  else if n2 < 1 then .error (.parameter (.repeatCount "n2" n2))
  else if n3 < 1 then .error (.parameter (.repeatCount "n3" n3))
  else ofRows ⟨⟨n1, 0, 0⟩, ⟨0, n2, 0⟩, ⟨0, 0, n3⟩⟩

/-- The number of unit cells in the supercell. -/
def det (s : ScalingMatrix) : Int :=
  s.rows.intDet

/-- Each vector of the supercell is a multiple of the one of the unit cell. -/
def isDiagonal (s : ScalingMatrix) : Bool :=
  let m := s.rows
  m.row1.y == 0 && m.row1.z == 0 && m.row2.x == 0 && m.row2.z == 0 && m.row3.x == 0 &&
    m.row3.y == 0

/-- The entries as numbers. -/
def scalars {α : Type} [Scalar α] (s : ScalingMatrix) : Mat3 α :=
  s.rows.map Scalar.ofInt

end ScalingMatrix

end Honeycomb
