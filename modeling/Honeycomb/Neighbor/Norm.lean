import Honeycomb.Error
import Honeycomb.Geometry.Vec3

/-!
# Norms for neighbor distances

* `Norm` — the Minkowski norms, with the orders one, two and infinity told apart.
* `Norm.ofOrder` — the norm of an order that is at least one.
* `Norm.distance` — the distance of two points.
-/

set_option autoImplicit false

namespace Honeycomb

/-- A Minkowski norm, by its order. -/
inductive Norm (α : Type) where
  | manhattan
  | euclidean
  | chebyshev
  | minkowski (p : α)
deriving Repr, DecidableEq

namespace Norm

variable {α : Type} [Scalar α]

/-- The norm of order `p`; an order below one, or that is not a number, is refused. -/
def ofOrder (p : α) : Except (Error α) (Norm α) :=
  if 1 ≤ p then
    if p == 1 then .ok manhattan
    else if p == 2.0 then .ok euclidean
    else if Scalar.isFinite p then .ok (minkowski p)
    else .ok chebyshev
  else .error (.parameter (.normOrder p))

/-- The distance of two points in the norm. -/
@[specialize]
def distance (norm : Norm α) (p q : Vec3 α) : α :=
  let x := Scalar.abs (p.x - q.x)
  let y := Scalar.abs (p.y - q.y)
  let z := Scalar.abs (p.z - q.z)
  match norm with
  | manhattan => x + y + z
  | euclidean => Scalar.distance p.x p.y p.z q.x q.y q.z
  | chebyshev => Scalar.greater (Scalar.greater (Scalar.greater 0 x) y) z
  | minkowski e => Scalar.pow (Scalar.pow x e + Scalar.pow y e + Scalar.pow z e) (1 / e)

/-- The norm is the Euclidean one. -/
def isEuclidean : Norm α → Bool
  | euclidean => true
  | _ => false

/-- In the name of a norm a tie goes upward and powers of ten have no plus sign. -/
def orderStyle : PointStyle :=
  ⟨.upward, false⟩

/-- The name of a norm. -/
def text : Norm Double → String
  | manhattan => "Manhattan"
  | euclidean => "Euclidean"
  | chebyshev => "Chebyshev"
  | minkowski p => "Minkowski(" ++ pointedText orderStyle p ++ ")"

end Norm

end Honeycomb
