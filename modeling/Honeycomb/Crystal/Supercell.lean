import Honeycomb.Crystal.Lattice
import Honeycomb.Crystal.Scaling

/-!
# Supercells

* `ScalingMatrix.boxPlaces` — the places of the unit cells when the matrix is diagonal.
* `ScalingMatrix.scanPlaces` — in general: the points of the bounding box of the corners
  whose coordinates in units of the supercell lie between zero and one.
* `UnitCell.tile` — the atoms of a unit cell at each place, and the lattice of the supercell.

Both lists of places are in lexicographic order.
-/

set_option autoImplicit false

namespace Honeycomb

/-- The integers from `lo` to `hi`, both included. -/
def integersFromTo (lo hi : Int) : List Int :=
  (List.range (hi - lo + 1).toNat).map fun (k : Nat) => lo + k

theorem mem_integersFromTo {lo hi i : Int} : i ∈ integersFromTo lo hi ↔ lo ≤ i ∧ i ≤ hi := by
  simp only [integersFromTo, List.mem_map, List.mem_range]
  constructor
  · rintro ⟨k, hk, rfl⟩
    omega
  · rintro ⟨hlo, hhi⟩
    exact ⟨(i - lo).toNat, by omega, by omega⟩

/-- The integer points between two corners, both included, that satisfy a test, in
lexicographic order. -/
@[specialize] def pointsInBox (lo hi : Vec3 Int) (keep : Vec3 Int → Bool) : List (Vec3 Int) :=
  (integersFromTo lo.x hi.x).flatMap fun i =>
    (integersFromTo lo.y hi.y).flatMap fun j =>
      ((integersFromTo lo.z hi.z).map fun k => ⟨i, j, k⟩).filter keep

theorem mem_pointsInBox {lo hi p : Vec3 Int} {keep : Vec3 Int → Bool} :
    p ∈ pointsInBox lo hi keep ↔
      ((lo.x ≤ p.x ∧ p.x ≤ hi.x) ∧ (lo.y ≤ p.y ∧ p.y ≤ hi.y) ∧ (lo.z ≤ p.z ∧ p.z ≤ hi.z)) ∧
        keep p = true := by
  simp only [pointsInBox, List.mem_flatMap, List.mem_filter, List.mem_map, mem_integersFromTo]
  constructor
  · rintro ⟨i, hi, j, hj, ⟨k, hk, rfl⟩, hkeep⟩
    exact ⟨⟨hi, hj, hk⟩, hkeep⟩
  · rintro ⟨⟨hi, hj, hk⟩, hkeep⟩
    exact ⟨p.x, hi, p.y, hj, ⟨p.z, hk, rfl⟩, hkeep⟩

namespace ScalingMatrix

/-- The places of the unit cells in a box of `n.x` by `n.y` by `n.z` cells. -/
def boxPlaces (n : Vec3 Int) : List (Vec3 Int) :=
  pointsInBox ⟨0, 0, 0⟩ (n.map (· - 1)) fun _ => true

/-- The corner on the far side of the rows that are chosen. -/
def corner (m : Mat3 Int) (first second third : Bool) : Vec3 Int :=
  let part (chosen : Bool) (row : Vec3 Int) : Vec3 Int := if chosen then row else ⟨0, 0, 0⟩
  let a := part first m.row1
  let b := part second m.row2
  let c := part third m.row3
  ⟨a.x + b.x + c.x, a.y + b.y + c.y, a.z + b.z + c.z⟩

/-- The eight corners of the supercell. -/
def corners (m : Mat3 Int) : List (Vec3 Int) :=
  [false, true].flatMap fun third =>
    [false, true].flatMap fun second =>
      [false, true].map fun first => corner m first second third

/-- The least box with all corners. One corner is the origin. -/
def cornerBox (m : Mat3 Int) : Vec3 Int × Vec3 Int :=
  let least (f : Vec3 Int → Int) : Int := (corners m).foldl (fun a p => min a (f p)) 0
  let greatest (f : Vec3 Int → Int) : Int := (corners m).foldl (fun a p => max a (f p)) 0
  (⟨least Vec3.x, least Vec3.y, least Vec3.z⟩, ⟨greatest Vec3.x, greatest Vec3.y, greatest Vec3.z⟩)

/-- The number of points in a box. -/
def boxSize (lo hi : Vec3 Int) : Int :=
  (hi.x - lo.x + 1) * (hi.y - lo.y + 1) * (hi.z - lo.z + 1)

/-- The greatest number of points that are scanned. -/
def maxScan : Int := 64 * maxUnitCells

/-- A coordinate that fits into 32 bits. -/
def isInRange (v : Int) : Bool :=
  -2147483648 ≤ v && v < 2147483648

variable {α : Type} [Scalar α]

/-- A coordinate in units of the supercell that lies inside it, the near side included and the
far side not. Both sides are moved outward a little against rounding. -/
@[inline] def isInside (f : α) : Bool :=
  -1e-9 ≤ f && f < 1 - 1e-9

/-- A point lies inside the supercell, by the transposed inverse of its matrix. -/
@[specialize] def holds (inverse : Mat3 α) (p : Vec3 Int) : Bool :=
  let x : α := Scalar.ofInt p.x
  let y : α := Scalar.ofInt p.y
  let z : α := Scalar.ofInt p.z
  isInside (inverse.row1.x * x + inverse.row1.y * y + inverse.row1.z * z) &&
    isInside (inverse.row2.x * x + inverse.row2.y * y + inverse.row2.z * z) &&
      isInside (inverse.row3.x * x + inverse.row3.y * y + inverse.row3.z * z)

/-- The places of the unit cells in a supercell, found by scanning. There must be as many as
the determinant says. -/
def scanPlaces (s : ScalingMatrix) : Except (Error α) (List (Vec3 Int)) :=
  match (s.scalars : Mat3 α).inverse? with
  | none => .error (.parameter .scalingSingular)
  | some inverse =>
    let (lo, hi) := cornerBox s.rows
    if maxScan < boxSize lo hi then
      .error (.parameter (.scanTooLarge (boxSize lo hi) maxScan))
    else
      match (lo.toList ++ hi.toList).find? (!isInRange ·) with
      | some v => .error (.parameter (.pointOutOfRange v))
      | none =>
        let points := pointsInBox lo hi (holds inverse.transpose)
        if (points.length : Int) = s.det then .ok points
        else .error (.parameter (.pointCount points.length s.det.toNat))

/-- The places of the unit cells in a supercell. -/
def places (s : ScalingMatrix) : Except (Error α) (List (Vec3 Int)) :=
  if s.isDiagonal then .ok (boxPlaces ⟨s.rows.row1.x, s.rows.row2.y, s.rows.row3.z⟩)
  else s.scanPlaces

end ScalingMatrix

/-- A crystal on a larger lattice. -/
structure Supercell (α : Type) [Scalar α] where
  lattice : Lattice α
  scaling : ScalingMatrix
  atoms : List (Atom α)

namespace UnitCell

variable {α : Type} [Scalar α]

/-- The lattice vectors of the supercell. -/
def scaledLattice (cell : UnitCell α) (s : ScalingMatrix) : Except (Error α) (Lattice α) :=
  Lattice.ofMatrix (s.scalars.mul cell.lattice.matrix)

/-- The shift to a place. -/
def shiftTo (cell : UnitCell α) (place : Vec3 Int) : Vec3 α :=
  let ⟨a, b, c⟩ := cell.lattice.matrix
  a * (Scalar.ofInt place.x : α) + b * (Scalar.ofInt place.y : α) + c * (Scalar.ofInt place.z : α)

/-- The atoms of the cell at each of several places. -/
def copies (cell : UnitCell α) (places : List (Vec3 Int)) : List (Atom α) :=
  places.flatMap fun place =>
    let t := cell.shiftTo place
    cell.basis.map fun a => { a with position := a.position + t }

/-- The supercell. -/
def tile (cell : UnitCell α) (s : ScalingMatrix) : Except (Error α) (Supercell α) := do
  let lattice ← cell.scaledLattice s
  let places ← s.places
  return ⟨lattice, s, cell.copies places⟩

end UnitCell

end Honeycomb
