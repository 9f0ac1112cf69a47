import Honeycomb.Collection.Measure

/-!
# Rigid motions

Motions of all atoms together. Each drops the neighbor data and the type table.

* `Collection.shiftBy`, `Collection.center` — shifts.
* `Collection.rotate` — turns positions and velocities by a matrix about a pivot.
* `Collection.rotateAbout?`, `Collection.rotateAxis`, `Collection.rotateEuler` — rotations by
  vector and angle, by coordinate axis and angle, and by three angles.
-/

set_option autoImplicit false

namespace Honeycomb.Collection

variable {α : Type} [Scalar α]

/-- Shifts all atoms. -/
def shiftBy (c : Collection α) (t : Vec3 α) : Edit (Collection α) :=
  c.modifyAll fun a => { a with position := a.position + t }

/-- Shifts the centroid to the origin. -/
def center (c : Collection α) : Edit (Collection α) :=
  c.shiftBy (-c.centroid)

/-- Turns positions and velocities by a matrix. The pivot is the centroid unless one is
given. -/
def rotate (c : Collection α) (m : Mat3 α) (pivot : Option (Vec3 α)) : Edit (Collection α) :=
  let pivot := pivot.getD c.centroid
  c.modifyAll fun a =>
    { a with position := m.turnAbout pivot a.position, velocity := m.mulVec a.velocity }

/-- Rotates about a vector through the pivot; a vector without length is refused. -/
def rotateAbout? (c : Collection α) (angle : α) (axis : Vec3 α) (pivot : Option (Vec3 α)) :
    Except (Error α) (Edit (Collection α)) :=
  (Mat3.about? axis angle).map fun m => c.rotate m pivot

/-- Rotates about a coordinate axis through the pivot. -/
def rotateAxis (c : Collection α) (angle : α) (axis : Axis) (pivot : Option (Vec3 α)) :
    Edit (Collection α) :=
  c.rotate (Mat3.axisAngle axis.unit angle) pivot

/-- Rotates about the fixed axes x, y and z in turn. -/
def rotateEuler (c : Collection α) (roll pitch yaw : α) (pivot : Option (Vec3 α)) :
    Edit (Collection α) :=
  c.rotate (Mat3.euler roll pitch yaw) pivot

end Honeycomb.Collection
