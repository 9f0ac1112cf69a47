import Honeycomb.Geometry.Axis

/-!
# Bound vectors

A vector together with the point where it starts and the point where it ends.

* `BoundVector` — components, `start` and `stop`; the components are always `stop - start`.
* Moving the start keeps the end; every other change keeps the start.
* Sums and multiples start where the left operand starts.
-/

set_option autoImplicit false

namespace Honeycomb

/-- A vector that remembers where it starts and ends. -/
structure BoundVector (α : Type) where
  components : Vec3 α
  start : Vec3 α
  stop : Vec3 α
deriving Repr

namespace BoundVector

variable {α : Type} [Scalar α]

/-- The vector with given components that starts at a point. -/
def withStart (components start : Vec3 α) : BoundVector α :=
  ⟨components, start, start + components⟩

/-- The vector with given components that starts at the origin. -/
def ofComponents (components : Vec3 α) : BoundVector α :=
  withStart components 0

/-- The vector without length at the origin. -/
def zero : BoundVector α :=
  ofComponents 0

/-- The vector from one point to another. -/
def between (start stop : Vec3 α) : BoundVector α :=
  ⟨stop - start, start, stop⟩

/-- Other components from the same start. -/
def setComponents (v : BoundVector α) (components : Vec3 α) : BoundVector α :=
  withStart components v.start

/-- Another component along one axis. -/
def setComponent (v : BoundVector α) (axis : Axis) (a : α) : BoundVector α :=
  v.setComponents (v.components.replace axis a)

/-- Moves the end; the start stays. -/
def setStop (v : BoundVector α) (stop : Vec3 α) : BoundVector α :=
  v.setComponents (stop - v.start)

/-- Moves the start; the end stays. -/
def setStart (v : BoundVector α) (start : Vec3 α) : BoundVector α :=
  { v with start, components := v.stop - start }

/-- The inner product of the components. -/
def dot (v w : BoundVector α) : α :=
  v.components.dot w.components

/-- The cross product of the components, from the origin. -/
def cross (v w : BoundVector α) : BoundVector α :=
  ofComponents (v.components.cross w.components)

/-- The length. -/
def norm (v : BoundVector α) : α :=
  v.components.norm

/-- The direction from the same start; the zero vector when there is no length. -/
def unit (v : BoundVector α) : BoundVector α :=
  if v.norm == 0 then zero else withStart (v.components / v.norm) v.start

/-- The angle between the components. -/
def turn (v w : BoundVector α) : α :=
  v.components.turn w.components

/-- Components of magnitude at most `tolerance` become zero. -/
def rezero (v : BoundVector α) (tolerance : α) : BoundVector α :=
  v.setComponents (v.components.map fun a => if Scalar.abs a ≤ tolerance then 0 else a)

/-- The sum of the components, from the start of the first vector. -/
def add (v w : BoundVector α) : BoundVector α :=
  withStart (v.components + w.components) v.start

/-- The difference of the components, from the start of the first vector. -/
def sub (v w : BoundVector α) : BoundVector α :=
  withStart (v.components - w.components) v.start

/-- The opposite components from the same start. -/
def neg (v : BoundVector α) : BoundVector α :=
  withStart (-v.components) v.start

/-- A multiple of the components from the same start. -/
def scale (v : BoundVector α) (a : α) : BoundVector α :=
  withStart (v.components * a) v.start

end BoundVector

end Honeycomb
