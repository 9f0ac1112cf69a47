import Honeycomb.Region
import Honeycomb.Selection.Token

/-!
# Predicates on atoms

* `Predicate` — what a selection asks of an atom. `within` and `exwithin` look at distances to
  the atoms that satisfy another predicate; `inside` looks at a region.
* `Predicate.isSpatial` — distances between atoms matter somewhere in a predicate.
-/

set_option autoImplicit false

namespace Honeycomb.Selection

/-- What a selection asks of an atom. -/
inductive Predicate (α : Type) where
  | all
  | nothing
  | id (ids : List Nat)
  | molecule (ids : List Nat)
  | type (types : List Nat)
  | element (symbols : List String)
  | compare (axis : Axis) (comparison : Comparison) (value : α)
  | within (radius : α) (inner : Predicate α)
  | exwithin (radius : α) (inner : Predicate α)
  | inside (region : Region α)
  | not (inner : Predicate α)
  | and (left right : Predicate α)
  | or (left right : Predicate α)
deriving Repr, DecidableEq

/-- Some term asks for distances between atoms. -/
def Predicate.isSpatial {α : Type} : Predicate α → Bool
  | within _ _ => true
  | exwithin _ _ => true
  | not inner => inner.isSpatial
  | and left right => left.isSpatial || right.isSpatial
  | or left right => left.isSpatial || right.isSpatial
  | _ => false

end Honeycomb.Selection
