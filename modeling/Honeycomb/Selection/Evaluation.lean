import Std.Data.TreeSet
import Honeycomb.Collection.Surroundings
import Honeycomb.Selection.Parser

/-!
# Evaluating selections

Evaluation works on sets of ids.

* `IdSet` — a set of ids in ascending order.
* `Predicate.evalWith` — the ids of the atoms that satisfy a predicate, for any way to find the
  atoms around others; `Predicate.eval` — with the `neighborhood` of a collection. Distances are
  Euclidean whatever the norm of the collection. Only a predicate that asks for distances can
  fail.
* `Selection` — a selection with its text; `Selection.evaluate`, `Selection.select`.
* `usableIndex?` — a spatial index made before is used only if it is over the current positions
  and measures Euclidean distances.
-/

set_option autoImplicit false

namespace Honeycomb.Selection

/-- A set of ids. -/
abbrev IdSet := Std.TreeSet Nat

section

variable {α : Type} [Scalar α]

/-- The ids of all atoms. -/
def allIds (c : Collection α) : IdSet :=
  .ofList c.ids

/-- The ids of the atoms that satisfy a test. -/
def idsWhere (c : Collection α) (p : Atom α → Bool) : IdSet :=
  .ofList ((c.atoms.filter p).map (·.id))

/-- The index made before, when it can stand for the atoms. -/
def usableIndex? (c : Collection α) (supplied : Option (SpatialIndex α)) :
    Option (SpatialIndex α) :=
  supplied.filter fun index => !index.isStale c && index.norm.isEuclidean

/-- The index to find distances with: the one made before, or one made now. -/
def distanceIndex? (c : Collection α) (supplied : Option (SpatialIndex α)) :
    Except (Error α) (Option (SpatialIndex α)) :=
  match usableIndex? c supplied with
  | some index => .ok (some index)
  | none => SpatialIndex.ofPoints? c.positions .euclidean c.revision

/-- The atoms that stand in a set, and all atoms within a radius of them. -/
@[specialize]
def neighborhood (c : Collection α) (supplied : Option (SpatialIndex α)) (radius : α)
    (centers : IdSet) : Except (Error α) IdSet := do
  match ← distanceIndex? c supplied with
  | none => return centers
  | some index =>
    let places := (c.atoms.filter fun a => centers.contains a.id).map (·.position)
    let isReached ← index.reach places radius
    let around := (c.atoms.zip index.points).filter fun (a, p) =>
      !centers.contains a.id && isReached p
    return centers.insertMany (around.map (·.1.id))

/-- The ids of the atoms that satisfy a predicate, given how to add to a set the atoms around. -/
@[specialize]
def Predicate.evalWith (c : Collection α) (addAround : α → IdSet → Except (Error α) IdSet) :
    Predicate α → Except (Error α) IdSet
  | all => .ok (allIds c)
  | nothing => .ok ∅
  | id ids => .ok (idsWhere c fun a => ids.contains a.id)
  | molecule ids => .ok (idsWhere c fun a => ids.contains a.molecule)
  | type types => .ok (idsWhere c fun a => types.contains a.type)
  | element symbols => .ok (idsWhere c fun a => symbols.contains a.element)
  | compare axis comparison value =>
    .ok (idsWhere c fun a => comparison.holds (a.position.along axis) value)
  | inside region => .ok (idsWhere c fun a => region.contains a.position)
  | within radius inner => do
    let centers ← inner.evalWith c addAround
    addAround radius centers
  | exwithin radius inner => do
    let centers ← inner.evalWith c addAround
    return (← addAround radius centers) \ centers
  | not inner => do
    return allIds c \ (← inner.evalWith c addAround)
  | and left right => do
    let l ← left.evalWith c addAround
    let r ← right.evalWith c addAround
    return l ∩ r
  | or left right => do
    let l ← left.evalWith c addAround
    let r ← right.evalWith c addAround
    return l ∪ r

/-- The ids of the atoms that satisfy a predicate. -/
@[specialize]
def Predicate.eval (c : Collection α) (supplied : Option (SpatialIndex α)) (p : Predicate α) :
    Except (Error α) IdSet :=
  p.evalWith c (neighborhood c supplied)

/-- The atoms that satisfy a predicate, in order, as a new collection. -/
@[specialize]
def Predicate.select (p : Predicate α) (c : Collection α) (supplied : Option (SpatialIndex α)) :
    Except (Error α) (Edit (Collection α)) :=
  (p.eval c supplied).map fun ids => c.keep fun a => ids.contains a.id

end

end Honeycomb.Selection

namespace Honeycomb

/-- A selection and the text that it was read from. -/
structure Selection where
  source : String
  predicate : Selection.Predicate Double

namespace Selection

/-- Reads a selection. -/
def read (text : String) : Except (Error Double) Selection :=
  match readPredicate text with
  | .ok p => .ok ⟨text, p⟩
  | .error e => .error (.selection e)

/-- The ids of the atoms that a selection is true of, in ascending order. -/
def evaluate (s : Selection) (c : Collection Double) (supplied : Option (SpatialIndex Double)) :
    Except (Error Double) IdSet :=
  s.predicate.eval c supplied

/-- The atoms that a selection is true of, in order, as a new collection. -/
def select (s : Selection) (c : Collection Double) (supplied : Option (SpatialIndex Double)) :
    Except (Error Double) (Edit (Collection Double)) :=
  s.predicate.select c supplied

end Selection

end Honeycomb
