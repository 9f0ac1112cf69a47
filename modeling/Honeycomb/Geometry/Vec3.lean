import Honeycomb.Number.Scalar

/-!
# Vectors in space

* `Vec3` — three components; a position is the vector to it from the origin.
* Sum, difference, negation, multiples, inner and cross product, length.
* `Vec3.unit?` — the direction of a vector that is longer than a tolerance.
* `Vec3.turn`, `Vec3.angle` — the angle between two vectors, zero when the product of their
  lengths is, or when one of the lengths is.

Sums of three terms are taken in the order x, y, z.
-/

set_option autoImplicit false

namespace Honeycomb

/-- A vector, or the position it leads to. -/
structure Vec3 (α : Type) where
  x : α
  y : α
  z : α
deriving Repr, DecidableEq

namespace Vec3

variable {α : Type}

/-- The vector made of one number. -/
def const (a : α) : Vec3 α :=
  ⟨a, a, a⟩

/-- Applies a function to each component. -/
def map {β : Type} (f : α → β) (v : Vec3 α) : Vec3 β :=
  ⟨f v.x, f v.y, f v.z⟩

/-- Joins two vectors component by component. -/
def zipWith {β γ : Type} (f : α → β → γ) (v : Vec3 α) (w : Vec3 β) : Vec3 γ :=
  ⟨f v.x w.x, f v.y w.y, f v.z w.z⟩

/-- The components in order. -/
def toList (v : Vec3 α) : List α :=
  [v.x, v.y, v.z]

/-- All components satisfy a test. -/
def all (p : α → Bool) (v : Vec3 α) : Bool :=
  p v.x && p v.y && p v.z

variable [Scalar α]

instance : Zero (Vec3 α) := ⟨⟨0, 0, 0⟩⟩

instance : Add (Vec3 α) := ⟨zipWith (· + ·)⟩

instance : Sub (Vec3 α) := ⟨zipWith (· - ·)⟩

instance : Neg (Vec3 α) := ⟨map (- ·)⟩

instance : HMul (Vec3 α) α (Vec3 α) := ⟨fun v a => v.map (· * a)⟩

instance : HDiv (Vec3 α) α (Vec3 α) := ⟨fun v a => v.map (· / a)⟩

instance : BEq (Vec3 α) := ⟨fun v w => v.x == w.x && v.y == w.y && v.z == w.z⟩

/-- The unit vectors of the axes. -/
def ex : Vec3 α := ⟨1, 0, 0⟩

/-- The unit vector along y. -/
def ey : Vec3 α := ⟨0, 1, 0⟩

/-- The unit vector along z. -/
def ez : Vec3 α := ⟨0, 0, 1⟩

/-- The inner product. -/
def dot (v w : Vec3 α) : α :=
  v.x * w.x + v.y * w.y + v.z * w.z

/-- The cross product. -/
def cross (v w : Vec3 α) : Vec3 α :=
  ⟨v.y * w.z - v.z * w.y, v.z * w.x - v.x * w.z, v.x * w.y - v.y * w.x⟩

/-- The square of the length. -/
def normSq (v : Vec3 α) : α :=
  dot v v

/-- The length. -/
def norm (v : Vec3 α) : α :=
  Scalar.sqrt (normSq v)

/-- The distance of two points. -/
def dist (v w : Vec3 α) : α :=
  norm (v - w)

/-- The unit vector along `v`, unless its length is at most `tolerance`. -/
def unit? (tolerance : α) (v : Vec3 α) : Option (Vec3 α) :=
  if norm v ≤ tolerance then none else some (v / norm v)

/-- The point halfway between two. -/
def midpoint (v w : Vec3 α) : Vec3 α :=
  (v + w) * (0.5 : α)

/-- The angle whose cosine is the inner product of two vectors over the product `scale` of their
lengths. -/
def angleOf (scale : α) (v w : Vec3 α) : α :=
  Scalar.acos (Scalar.clamp (-1) 1 (dot v w / scale))

/-- The angle between two vectors; zero when the product of their lengths is. -/
def turn (v w : Vec3 α) : α :=
  let scale := norm v * norm w
  if scale == 0 then 0 else angleOf scale v w

/-- The angle between two vectors; zero when the length of one of them is, whatever the other
one is. -/
def angle (v w : Vec3 α) : α :=
  if norm v == 0 || norm w == 0 then 0 else angleOf (norm v * norm w) v w

/-- The angle `a b c` at the corner `b`, in degrees. -/
def corner (a b c : Vec3 α) : α :=
  Scalar.degrees (turn (a - b) (c - b))

/-- All components are finite. -/
def isFinite (v : Vec3 α) : Bool :=
  v.all Scalar.isFinite

/-- The componentwise lesser of two points; of two numbers that do not compare, the second. -/
def lesser (v w : Vec3 α) : Vec3 α :=
  zipWith (fun a b => if a ≤ b then a else b) v w

/-- The componentwise greater of two points; of two numbers that do not compare, the second. -/
def greater (v w : Vec3 α) : Vec3 α :=
  zipWith (fun a b => if b ≤ a then a else b) v w

/-- The sum of a list of vectors, from the left. -/
def sum (vs : List (Vec3 α)) : Vec3 α :=
  vs.foldl (· + ·) 0

end Vec3

end Honeycomb
