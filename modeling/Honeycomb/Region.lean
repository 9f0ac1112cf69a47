import Honeycomb.Geometry.Mat3

/-!
# Regions of space

* `Region` — sphere, cylinder, parallelepiped, cuboid or ellipsoid, all closed.
* `Region.contains` — whether a point lies in a region, with a small slack at the surface.
* `Region.centroid` — the middle of a region.
* `Shape` — the kinds of regions by name, each with a region that stands for it.
-/

set_option autoImplicit false

namespace Honeycomb

/-- The kinds of regions. -/
inductive Shape where
  | sphere
  | cylinder
  | parallelepiped
  | cuboid
  | ellipsoid
deriving Repr, DecidableEq

namespace Shape

/-- The name of a shape in a selection. -/
def name : Shape → String
  | sphere => "Sphere"
  | cylinder => "Cylinder"
  | parallelepiped => "Parallelepiped"
  | cuboid => "Cuboid"
  | ellipsoid => "Ellipsoid"

/-- The shape with a name. -/
def ofName? (s : String) : Option Shape :=
  [sphere, cylinder, parallelepiped, cuboid, ellipsoid].find? (·.name == s)

theorem ofName?_name (s : Shape) : ofName? s.name = some s := by
  cases s <;> decide

end Shape

/-- An axis-aligned box between two corners. -/
structure Cuboid (α : Type) where
  low : Vec3 α
  high : Vec3 α
deriving Repr, DecidableEq

/-- A closed region of space. A cylinder is given by the centers of its end caps, a
parallelepiped by a corner and the three edges that start there, an ellipsoid by its semi-axes
along x, y and z. -/
inductive Region (α : Type) where
  | sphere (center : Vec3 α) (radius : α)
  | cylinder (bottom top : Vec3 α) (radius : α)
  | parallelepiped (corner u v w : Vec3 α)
  | cuboid (box : Cuboid α)
  | ellipsoid (center : Vec3 α) (a b c : α)
deriving Repr, DecidableEq

namespace Cuboid

variable {α : Type} [Scalar α]

/-- The lengths of the edges. -/
def lengths (box : Cuboid α) : Vec3 α :=
  box.high - box.low

/-- The middle of the box. -/
def centroid (box : Cuboid α) : Vec3 α :=
  box.low.midpoint box.high

end Cuboid

namespace Region

variable {α : Type} [Scalar α]

/-- How far outside a surface still counts as on it. -/
def slack : α := 1e-10

/-- A number between zero and one, with slack. -/
def isFraction (a : α) : Bool :=
  -slack ≤ a && a ≤ 1 + slack

/-- A point within a radius of a center line or center point, by the square of its distance. -/
def isNear (distanceSq radius : α) : Bool :=
  distanceSq ≤ radius * radius + slack

/-- Membership of a point. A cylinder without length, a parallelepiped without volume and an
ellipsoid with a semi-axis that is not positive hold no point. -/
def contains : Region α → Vec3 α → Bool
  | sphere center radius, p => isNear (p - center).normSq radius
  | cylinder bottom top radius, p =>
    let axis := top - bottom
    let lengthSq := axis.normSq
    if lengthSq == 0 then false
    else
      let d := p - bottom
      let t := d.dot axis / lengthSq
      isFraction t && isNear (d - axis * t).normSq radius
  | parallelepiped corner u v w, p =>
    match (Mat3.transpose ⟨u, v, w⟩).inverse? with
    | none => false
    | some inverse => (inverse.mulVec (p - corner)).all isFraction
  | cuboid box, p =>
    (p.zipWith (fun a lo => decide (lo - slack ≤ a)) box.low).all id &&
      (p.zipWith (fun a hi => decide (a ≤ hi + slack)) box.high).all id
  | ellipsoid center a b c, p =>
    if a ≤ 0 ∨ b ≤ 0 ∨ c ≤ 0 then false
    else
      let d := p - center
      let s : Vec3 α := ⟨d.x / a, d.y / b, d.z / c⟩
      s.normSq ≤ 1 + slack

/-- The middle of a region. -/
def centroid : Region α → Vec3 α
  | sphere center _ => center
  | cylinder bottom top _ => bottom.midpoint top
  | parallelepiped corner u v w => corner + (u + v + w) / (2.0 : α)
  | cuboid box => box.centroid
  | ellipsoid center _ _ _ => center

/-- The shape of a region. -/
def shape : Region α → Shape
  | sphere _ _ => .sphere
  | cylinder _ _ _ => .cylinder
  | parallelepiped _ _ _ _ => .parallelepiped
  | cuboid _ => .cuboid
  | ellipsoid _ _ _ _ => .ellipsoid

end Region

/-- The region that stands for a shape when nothing is said about it: the sphere of radius one
at the origin, the cylinder of radius one about the z axis from -1 to 1, the parallelepiped on
the unit vectors, the box from the origin to (1, 1, 1), the ellipsoid with semi-axes one. -/
def Shape.standard {α : Type} [Scalar α] : Shape → Region α
  | sphere => .sphere 0 1
  | cylinder => .cylinder ⟨0, 0, -1⟩ ⟨0, 0, 1⟩ 1
  | parallelepiped => .parallelepiped 0 Vec3.ex Vec3.ey Vec3.ez
  | cuboid => .cuboid ⟨0, Vec3.const 1⟩
  | ellipsoid => .ellipsoid 0 1 1 1

theorem Shape.shape_standard {α : Type} [Scalar α] (s : Shape) :
    (s.standard : Region α).shape = s := by
  cases s <;> rfl

end Honeycomb
