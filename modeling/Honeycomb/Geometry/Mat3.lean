import Honeycomb.Geometry.Vec3

/-!
# Three by three matrices

* `Mat3` — a matrix as its three rows.
* `Mat3.mulVec`, `Mat3.mul`, `Mat3.det`, `Mat3.inverse?`.
* `Mat3.axisAngle` — the right-handed rotation about a unit axis.
* `Mat3.euler` — turns about the fixed axes x, y and z, in this order.
* `Mat3.turnAbout` — the image of a point when a matrix acts about a pivot.
-/

set_option autoImplicit false

namespace Honeycomb

/-- A matrix, by rows. -/
structure Mat3 (α : Type) where
  row1 : Vec3 α
  row2 : Vec3 α
  row3 : Vec3 α
deriving Repr, DecidableEq

namespace Mat3

variable {α : Type}

/-- The rows in order. -/
def rows (m : Mat3 α) : List (Vec3 α) :=
  [m.row1, m.row2, m.row3]

/-- Applies a function to each entry. -/
def map {β : Type} (f : α → β) (m : Mat3 α) : Mat3 β :=
  ⟨m.row1.map f, m.row2.map f, m.row3.map f⟩

/-- Rows and columns exchanged. -/
def transpose (m : Mat3 α) : Mat3 α :=
  ⟨⟨m.row1.x, m.row2.x, m.row3.x⟩, ⟨m.row1.y, m.row2.y, m.row3.y⟩, ⟨m.row1.z, m.row2.z, m.row3.z⟩⟩

variable [Scalar α]

/-- The identity. -/
def one : Mat3 α :=
  ⟨Vec3.ex, Vec3.ey, Vec3.ez⟩

/-- The product with a column vector. -/
def mulVec (m : Mat3 α) (v : Vec3 α) : Vec3 α :=
  ⟨m.row1.dot v, m.row2.dot v, m.row3.dot v⟩

/-- The product of two matrices. -/
def mul (m n : Mat3 α) : Mat3 α :=
  let columns := n.transpose
  ⟨columns.mulVec m.row1, columns.mulVec m.row2, columns.mulVec m.row3⟩

/-- The determinant, expanded along the first row. -/
def det (m : Mat3 α) : α :=
  m.row1.x * (m.row2.y * m.row3.z - m.row3.y * m.row2.z)
    - m.row1.y * (m.row2.x * m.row3.z - m.row3.x * m.row2.z)
    + m.row1.z * (m.row2.x * m.row3.y - m.row3.x * m.row2.y)

/-- The inverse, by cofactors; there is none when the determinant is zero. -/
def inverse? (m : Mat3 α) : Option (Mat3 α) :=
  let ⟨⟨a, b, c⟩, ⟨d, e, f⟩, ⟨g, h, i⟩⟩ := m
  let minor1 := e * i - h * f
  let minor2 := d * i - g * f
  let minor3 := d * h - g * e
  let det := m.det
  if det == 0 then none
  else
    some ⟨⟨minor1 / det, (c * h - i * b) / det, (b * f - e * c) / det⟩,
      ⟨-minor2 / det, (a * i - g * c) / det, (d * c - f * a) / det⟩,
      ⟨minor3 / det, (b * g - h * a) / det, (a * e - d * b) / det⟩⟩

/-- The rotation by `angle` about the unit vector `axis`; a zero angle is the identity
whatever the axis. -/
def axisAngle (axis : Vec3 α) (angle : α) : Mat3 α :=
  if angle == 0 then one
  else
    let ⟨x, y, z⟩ := axis
    let s := Scalar.sin angle
    let c := Scalar.cos angle
    let k := 1 - c
    ⟨⟨x * x + (1 - x * x) * c, x * y * k - z * s, x * z * k + y * s⟩,
      ⟨x * y * k + z * s, y * y + (1 - y * y) * c, y * z * k - x * s⟩,
      ⟨x * z * k - y * s, y * z * k + x * s, z * z + (1 - z * z) * c⟩⟩

/-- A turn by `roll` about x, then by `pitch` about y, then by `yaw` about z. -/
def euler (roll pitch yaw : α) : Mat3 α :=
  let sr := Scalar.sin roll
  let cr := Scalar.cos roll
  let sp := Scalar.sin pitch
  let cp := Scalar.cos pitch
  let sy := Scalar.sin yaw
  let cy := Scalar.cos yaw
  ⟨⟨cy * cp, cy * sp * sr - sy * cr, cy * sp * cr + sy * sr⟩,
    ⟨sy * cp, sy * sp * sr + cy * cr, sy * sp * cr - cy * sr⟩,
    ⟨-sp, cp * sr, cp * cr⟩⟩

/-- The image of a point when the matrix acts about `pivot`. -/
def turnAbout (m : Mat3 α) (pivot p : Vec3 α) : Vec3 α :=
  pivot + m.mulVec (p - pivot)

end Mat3

end Honeycomb
