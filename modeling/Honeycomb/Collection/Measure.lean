import Honeycomb.Collection.Basic
import Honeycomb.Region

/-!
# Sums and extents

* `Collection.netCharge`, `Collection.centroid`, `Collection.centerOfMass`.
* `Collection.boundingBox` — the least box that holds all atoms.
-/

set_option autoImplicit false

namespace Honeycomb

/-- The least box that holds all points; none when there are no points. -/
def Cuboid.around? {α : Type} [Scalar α] : List (Vec3 α) → Option (Cuboid α)
  | [] => none
  | p :: ps => some ⟨ps.foldl Vec3.lesser p, ps.foldl Vec3.greater p⟩

namespace Collection

variable {α : Type} [Scalar α]

/-- The sum of the charges. -/
def netCharge (c : Collection α) : α :=
  Scalar.sum (c.atoms.map (·.charge))

/-- The mean position; the origin when there are no atoms. -/
def centroid (c : Collection α) : Vec3 α :=
  if c.isEmpty then 0 else Vec3.sum c.positions / (Scalar.ofNat c.size : α)

/-- The mean position weighted by mass; the centroid when there is no mass. -/
def centerOfMass (c : Collection α) : Vec3 α :=
  let total : α := Scalar.sum (c.atoms.map (·.mass))
  if total == 0 then c.centroid
  else Vec3.sum (c.atoms.map fun a => a.position * a.mass) / total

/-- The least box that holds all atoms; none when there are no atoms. -/
def boundingBox (c : Collection α) : Option (Cuboid α) :=
  Cuboid.around? c.positions

end Collection

end Honeycomb
