import Honeycomb.Collection.Basic

/-!
# Sorting

* `SortKey` — what atoms are sorted by.
* `SortKey.before` — the order of two atoms under a key.
* `Collection.sort` — a stable sort, in either direction.
-/

set_option autoImplicit false

namespace Honeycomb

/-- What atoms are sorted by. The composite key compares element, atomic number, type,
molecule and id, in this order. -/
inductive SortKey where
  | composite
  | id
  | element
  | molecule
  | type
  | coordinate (axis : Axis)
deriving Repr, DecidableEq

namespace SortKey

/-- The sort keys by name. -/
def ofName? (s : String) : Option SortKey :=
  [("composite", composite), ("id", id), ("element", element), ("mol", molecule),
    ("type", type), ("x", coordinate .x), ("y", coordinate .y), ("z", coordinate .z)].lookup s

/-- The parts of the composite key. -/
def compareAll {α : Type} (a b : Atom α) : Ordering :=
  (compare a.element b.element).then <|
    (compare a.atomicNumber b.atomicNumber).then <|
      (compare a.type b.type).then <|
        (compare a.molecule b.molecule).then (compare a.id b.id)

/-- The first atom does not come after the second. Any two atoms are comparable. -/
def before {α : Type} [Scalar α] : SortKey → Atom α → Atom α → Bool
  | composite, a, b => (compareAll a b).isLE
  | id, a, b => decide (a.id ≤ b.id)
  | element, a, b => (compare a.element b.element).isLE
  | molecule, a, b => decide (a.molecule ≤ b.molecule)
  | type, a, b => decide (a.type ≤ b.type)
  | coordinate axis, a, b => Scalar.before (a.position.along axis) (b.position.along axis)

end SortKey

/-- Sorts the atoms. Atoms that are equal under the key keep their order, also when the order
is reversed. -/
def Collection.sort {α : Type} [Scalar α] (c : Collection α) (key : SortKey) (reverse : Bool) :
    Edit (Collection α) :=
  let sorted := c.atoms.mergeSort fun a b => if reverse then key.before b a else key.before a b
  c.restock sorted c.typeTable

/-- Sorting neither adds nor removes atoms. -/
theorem Collection.sort_perm {α : Type} [Scalar α] (c : Collection α) (key : SortKey)
    (reverse : Bool) (r : Revision) :
    List.Perm ((c.sort key reverse).run r).1.atoms c.atoms := by
  exact List.mergeSort_perm _ _

end Honeycomb
