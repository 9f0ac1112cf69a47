import Honeycomb.Error
import Honeycomb.Geometry.Mat3

/-!
# Coordinate axes and rotations

* `Axis` — one of x, y, z, with its name and its unit vector.
* `Vec3.along`, `Vec3.replace` — a component read and replaced by its axis.
* `Mat3.about?` — the rotation about any vector that has a length.
-/

set_option autoImplicit false

namespace Honeycomb

/-- A coordinate axis. -/
inductive Axis where
  | x
  | y
  | z
deriving Repr, DecidableEq

namespace Axis

/-- The name of the axis. -/
def name : Axis → String
  | x => "x"
  | y => "y"
  | z => "z"

/-- The axis with a name. -/
def ofName? (s : String) : Option Axis :=
  [x, y, z].find? (·.name == s)

theorem ofName?_name (a : Axis) : ofName? a.name = some a := by
  cases a <;> decide

/-- Reads the name of an axis in small or capital letters. -/
def read {α : Type} (s : String) : Except (Error α) Axis :=
  let lowered := s.toLower
  match ofName? lowered with
  | some a => .ok a
  | none => .error (.parameter (.axisName lowered))

/-- The unit vector along the axis. -/
def unit {α : Type} [Scalar α] : Axis → Vec3 α
  | x => Vec3.ex
  | y => Vec3.ey
  | z => Vec3.ez

end Axis

namespace Vec3

variable {α : Type}

/-- The component along an axis. -/
def along (v : Vec3 α) : Axis → α
  | .x => v.x
  | .y => v.y
  | .z => v.z

/-- The vector with another component along an axis. -/
def replace (v : Vec3 α) (axis : Axis) (a : α) : Vec3 α :=
  match axis with
  | .x => { v with x := a }
  | .y => { v with y := a }
  | .z => { v with z := a }

theorem along_replace (v : Vec3 α) (axis other : Axis) (a : α) :
    (v.replace axis a).along other = if other = axis then a else v.along other := by
  cases axis <;> cases other <;> simp [replace, along]

end Vec3

/-- The rotation by `angle` about a vector of any length but zero. -/
def Mat3.about? {α : Type} [Scalar α] (axis : Vec3 α) (angle : α) :
    Except (Error α) (Mat3 α) :=
  if axis.norm == 0 then .error (.parameter .zeroRotationAxis)
  else .ok (.axisAngle (axis / axis.norm) angle)

end Honeycomb
