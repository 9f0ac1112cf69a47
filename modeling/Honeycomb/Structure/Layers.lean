import Honeycomb.Atom.Basic
import Honeycomb.Error
import Honeycomb.Geometry.Axis

/-!
# Stacks of layers

* `Layers` — how copies of one layer are stacked: how many, how far apart, how far the odd ones
  are shifted, and by which angle each is turned about z.
* `Layers.ofCount`, `Layers.single`, `Layers.withShift`, `Layers.withIncrement`,
  `Layers.withAngles`.
* `Layers.stack` — the atoms of all layers; layer `i` has the molecule id `i + 1`.
-/

set_option autoImplicit false

namespace Honeycomb

/-- The distance of the layers of graphite. -/
def graphiteSpacing {α : Type} [Scalar α] : α := 3.35

/-- How copies of a layer are stacked. There is an angle, in radians, for each. -/
structure Layers (α : Type) where
  count : Nat
  spacing : α
  shift : Vec3 α
  angles : List α
  count_pos : 0 < count
  length_angles : angles.length = count

namespace Layers

variable {α : Type} [Scalar α]

/-- Layers without shift and turn. There is at least one, and the spacing is not negative. -/
def ofCount (count : Nat) (spacing : α) : Except (Error α) (Layers α) :=
  if h : count = 0 then .error (.parameter .noLayers)
  else if 0 ≤ spacing then
    .ok ⟨count, spacing, 0, List.replicate count 0, Nat.pos_of_ne_zero h, List.length_replicate⟩
  else .error (.parameter (.layerSpacing spacing))

/-- A single layer. -/
def single : Layers α :=
  ⟨1, graphiteSpacing, 0, [0], Nat.one_pos, rfl⟩

/-- Odd layers are shifted. -/
def withShift (l : Layers α) (shift : Vec3 α) : Layers α :=
  { l with shift }

/-- An angle given in degrees or in radians, in radians. -/
def inRadians (isDegrees : Bool) (angle : α) : α :=
  if isDegrees then Scalar.radians angle else angle

/-- Layer `i` is turned by `i` times an angle. -/
def withIncrement (l : Layers α) (increment : α) (isDegrees : Bool) : Layers α :=
  let step := inRadians isDegrees increment
  { l with
    angles := (List.range l.count).map fun i => Scalar.ofNat i * step
    length_angles := by simp }

/-- Each layer is turned by an angle of its own; there must be one for each. -/
def withAngles (l : Layers α) (angles : List α) (isDegrees : Bool) :
    Except (Error α) (Layers α) :=
  if h : angles.length = l.count then
    .ok { l with angles := angles.map (inRadians isDegrees), length_angles := by simp [h] }
  else .error (.parameter (.layerAngles l.count angles.length))

/-- The spacing, or the one of graphite when the layers lie on each other. -/
def properSpacing (l : Layers α) : α :=
  if 0 < l.spacing then l.spacing else graphiteSpacing

/-- An atom of layer `i`: moved to its layer, shifted when the layer is odd, and turned about
the z axis. -/
def place (l : Layers α) (axis : Axis) (i : Nat) (angle : α) (a : Atom α) : Atom α :=
  let step := (axis.unit : Vec3 α) * l.spacing
  let raised : Vec3 α := a.position + step * (Scalar.ofNat i : α)
  let moved := if i % 2 = 1 then raised + l.shift else raised
  let a := { a.forgetNeighbors with position := moved, molecule := i + 1 }
  if angle == 0 then a
  else
    let turn := Mat3.axisAngle Vec3.ez angle
    { a with position := turn.turnAbout 0 moved, velocity := turn.mulVec a.velocity }

/-- The atoms of all layers, from those of one. -/
def stack (l : Layers α) (axis : Axis) (layer : List (Atom α)) : List (Atom α) :=
  (l.angles.mapIdx fun i angle => layer.map (l.place axis i angle)).flatten

end Layers

end Honeycomb
