import Honeycomb.Atom.Basic
import Honeycomb.Error
import Honeycomb.Geometry.Mat3

/-!
# Lattices

* `Lattice` — three vectors that span a volume, as the rows of a matrix.
* `Lattice.ofVectors`, `Lattice.ofParameters` — from the vectors, or from their lengths and the
  angles between them; `Lattice.scaled` — with each vector multiplied by a factor.
* `Lattice.toCartesian`, `Lattice.toFractional?` — the two kinds of coordinates.
* `UnitCell` — a lattice and the atoms that are repeated on it.
-/

set_option autoImplicit false

namespace Honeycomb

section Coordinates

variable {α : Type} [Scalar α]

/-- The position with given coordinates in units of the rows. -/
def Mat3.toCartesian (rows : Mat3 α) (fractional : Vec3 α) : Vec3 α :=
  rows.transpose.mulVec fractional

/-- The coordinates of a position in units of the rows. -/
def Mat3.toFractional? (rows : Mat3 α) (position : Vec3 α) : Option (Vec3 α) :=
  rows.transpose.inverse?.map fun inverse => inverse.mulVec position

end Coordinates

/-- Three vectors that span a volume. -/
structure Lattice (α : Type) [Scalar α] where
  /-- The vectors as rows. -/
  matrix : Mat3 α
  spans : ¬ Scalar.abs matrix.det < 1e-12

namespace Lattice

variable {α : Type} [Scalar α]

/-- The lattice on three vectors, unless they lie in a plane. -/
def ofMatrix (matrix : Mat3 α) : Except (Error α) (Lattice α) :=
  if h : Scalar.abs matrix.det < 1e-12 then .error (.parameter .coplanarVectors)
  else .ok ⟨matrix, h⟩

theorem ofMatrix_eq_ok_iff {matrix : Mat3 α} {l : Lattice α} :
    ofMatrix matrix = .ok l ↔ l.matrix = matrix := by
  unfold ofMatrix
  constructor
  · intro h
    split at h
    · cases h
    · cases h
      rfl
  · rintro rfl
    rw [dif_neg l.spans]

/-- The lattice on three vectors, unless they lie in a plane. -/
def ofVectors (a b c : Vec3 α) : Except (Error α) (Lattice α) :=
  ofMatrix ⟨a, b, c⟩

/-- A length that a lattice vector can have. -/
def isLength (a : α) : Bool :=
  0 < a && Scalar.isFinite a

/-- The lattice with vectors of lengths `a`, `b`, `c` and the angles `alpha` between the second
and the third, `beta` between the first and the third, and `gamma` between the first and the
second, in degrees. The first vector lies along x, the second in the plane of x and y. -/
def ofParameters (a b c alpha beta gamma : α) : Except (Error α) (Lattice α) :=
  if !isLength a then .error (.parameter (.latticeLength "a" a))
  else if !isLength b then .error (.parameter (.latticeLength "b" b))
  else if !isLength c then .error (.parameter (.latticeLength "c" c))
  else
    let al := Scalar.radians alpha
    let be := Scalar.radians beta
    let ga := Scalar.radians gamma
    if Scalar.abs (Scalar.sin ga) < 1e-12 then .error (.parameter (.degenerateAngle gamma))
    else
      let x := c * Scalar.cos be
      let y := c * (Scalar.cos al - Scalar.cos be * Scalar.cos ga) / Scalar.sin ga
      let zSq := c * c - x * x - y * y
      if zSq ≤ 0 then .error (.parameter (.flatAngles alpha beta gamma))
      else
        ofVectors ⟨a, 0, 0⟩ ⟨b * Scalar.cos ga, b * Scalar.sin ga, 0⟩ ⟨x, y, Scalar.sqrt zSq⟩

/-- The lengths of the vectors. -/
def lengths (l : Lattice α) : Vec3 α :=
  ⟨l.matrix.row1.norm, l.matrix.row2.norm, l.matrix.row3.norm⟩

/-- The angles between the vectors in degrees, each under the vector that it leaves out. -/
def angles (l : Lattice α) : Vec3 α :=
  let ⟨a, b, c⟩ := l.matrix
  (⟨b.angle c, a.angle c, a.angle b⟩ : Vec3 α).map Scalar.degrees

/-- The volume that the vectors span. -/
def volume (l : Lattice α) : α :=
  Scalar.abs l.matrix.det

/-- The position with given fractional coordinates. -/
def toCartesian (l : Lattice α) (fractional : Vec3 α) : Vec3 α :=
  l.matrix.toCartesian fractional

/-- The fractional coordinates of a position. -/
def toFractional? (l : Lattice α) (position : Vec3 α) : Option (Vec3 α) :=
  l.matrix.toFractional? position

/-- The lattice with each vector multiplied by the component of `factors` that goes with it. -/
def scaled (l : Lattice α) (factors : Vec3 α) : Except (Error α) (Lattice α) :=
  ofVectors (l.matrix.row1 * factors.x) (l.matrix.row2 * factors.y) (l.matrix.row3 * factors.z)

end Lattice

/-- A lattice and the atoms that are repeated on it. -/
structure UnitCell (α : Type) [Scalar α] where
  lattice : Lattice α
  basis : List (Atom α)

/-- The cell with atoms at fractional coordinates. -/
def UnitCell.ofFractional {α : Type} [Scalar α] (lattice : Lattice α)
    (sites : List (String × Vec3 α)) : UnitCell α where
  lattice
  basis := sites.map fun (element, f) => Atom.placed element (lattice.toCartesian f)

end Honeycomb
