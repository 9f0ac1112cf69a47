import Std.Data.TreeMap
import Honeycomb.Atom.Attribute
import Honeycomb.Neighbor.SpatialIndex
import Honeycomb.Number.Distinct

/-!
# Collections of atoms

* `Collection` — atoms in order, the defaults of its neighbor search, an optional table of
  element properties, and a revision.
* `Edit` — a step that may draw new revisions. No revision is drawn twice, so two collections
  of one revision have the same positions, and a spatial index that carries the revision of a
  collection is over its current positions.
* `ofAtoms`, `append`, `extend`, `clear`, `keep` — membership.
* `modifyAll`, `modifyEach`, `modifyAt` — free edits; they drop what was derived from the atoms.
* `find?` — the atom with an id.
-/

set_option autoImplicit false

namespace Honeycomb

/-- A step that may draw new revisions. -/
abbrev Edit := StateM Revision

/-- The next revision, never drawn before. -/
def Edit.fresh : Edit Revision :=
  modifyGet fun r => (r, r + 1)

/-- Defaults of the neighbor search: how many neighbors, how near, in which norm. -/
structure NeighborParams (α : Type) where
  number : Nat := 6
  cutoff : Option α := none
  norm : Norm α := .euclidean
deriving Repr, DecidableEq

/-- Mass and charge recorded for one element. -/
structure TypeEntry (α : Type) where
  mass : α
  charge : α
deriving Repr, DecidableEq

/-- Mass and charge by element. -/
abbrev TypeTable (α : Type) := Std.TreeMap String (TypeEntry α)

/-- Atoms in order. The type table is there only when it was asked for since the last edit
that could make it wrong. -/
structure Collection (α : Type) where
  atoms : List (Atom α)
  params : NeighborParams α
  typeTable : Option (TypeTable α)
  revision : Revision

namespace Collection

variable {α : Type}

/-! ## Making and editing -/

/-- A collection with default search parameters. -/
def ofAtoms (atoms : List (Atom α)) : Edit (Collection α) := do
  return ⟨atoms, {}, none, ← Edit.fresh⟩

/-- The same collection with other atoms, under a new revision. -/
def restock (c : Collection α) (atoms : List (Atom α)) (typeTable : Option (TypeTable α)) :
    Edit (Collection α) := do
  return { c with atoms, typeTable, revision := ← Edit.fresh }

/-- Puts an atom at the end. -/
def append (c : Collection α) (a : Atom α) : Edit (Collection α) :=
  c.restock (c.atoms ++ [a]) none

/-- Puts atoms at the end. -/
def extend (c : Collection α) (as : List (Atom α)) : Edit (Collection α) :=
  c.restock (c.atoms ++ as) none

/-- Removes all atoms. -/
def clear (c : Collection α) : Edit (Collection α) :=
  c.restock [] none

/-- A new collection of the atoms that satisfy a test, with all they carry and with the same
search parameters. -/
def keep (c : Collection α) (p : Atom α → Bool) : Edit (Collection α) := do
  let kept ← ofAtoms (c.atoms.filter p)
  return { kept with params := c.params }

/-- A new collection of the atoms whose ids are listed, or of all the others. -/
def filter (c : Collection α) (ids : List Nat) (invert : Bool) : Edit (Collection α) :=
  c.keep fun a => ids.contains a.id != invert

/-- The ids of the atoms that `filter` keeps. -/
def filteredIds (c : Collection α) (ids : List Nat) (invert : Bool) : List Nat :=
  (c.atoms.map (·.id)).filter fun id => ids.contains id != invert

/-- Changes every atom. Neighbor data, pi-orbital axes and the type table are dropped
first. -/
def modifyAll (c : Collection α) (f : Atom α → Atom α) : Edit (Collection α) :=
  c.restock (c.atoms.map fun a => f a.forgetNeighbors) none

/-- Changes every atom, each in a way of its own. What `modifyAll` drops is dropped here too. -/
def modifyEach (c : Collection α) (f : Nat → Atom α → Atom α) : Edit (Collection α) :=
  c.restock (c.atoms.mapIdx fun i a => f i a.forgetNeighbors) none

/-- Changes the atom at an index, when there is one. What `modifyAll` drops is dropped here
too, for all atoms. -/
def modifyAt (c : Collection α) (i : Nat) (f : Atom α → Atom α) : Edit (Collection α) :=
  if i < c.atoms.length then
    c.restock ((c.atoms.map Atom.forgetNeighbors).modify i f) none
  else pure c

/-- Replaces an attribute of the atom at an index by its name and says whether that was
possible; nothing when there is no such atom. A refused value still counts as an edit. -/
def setAttributeAt (c : Collection α) (i : Nat) (name : String) (value : AttributeValue α) :
    Edit (Collection α × Option (Except (Error α) Unit)) := do
  let outcome := (c.atoms[i]?).map fun a => (a.setAttribute name value).map fun _ => ()
  let c ← c.modifyAt i fun a =>
    match a.setAttribute name value with
    | .ok b => b
    | .error _ => a
  return (c, outcome)

/-! ## Looking -/

/-- The number of atoms. -/
def size (c : Collection α) : Nat :=
  c.atoms.length

/-- There are no atoms. -/
def isEmpty (c : Collection α) : Bool :=
  c.atoms.isEmpty

/-- The ids in order. -/
def ids (c : Collection α) : List Nat :=
  c.atoms.map (·.id)

/-- The positions in order. -/
def positions (c : Collection α) : List (Vec3 α) :=
  c.atoms.map (·.position)

/-- The element symbols in order. -/
def elements (c : Collection α) : List String :=
  c.atoms.map (·.element)

/-- The types in order. -/
def types (c : Collection α) : List Nat :=
  c.atoms.map (·.type)

/-- No id occurs twice. -/
def hasUniqueIds (c : Collection α) : Bool :=
  allDistinct c.ids

/-- The atom with an id. Ids are usually the numbers from one on, so the place that the id
would have then is looked at first; otherwise it is the first atom with the id. -/
def find? (c : Collection α) (id : Nat) : Option (Atom α) :=
  let usual := if id = 0 then none else (c.atoms[id - 1]?).filter (·.id == id)
  match usual with
  | some a => some a
  | none => c.atoms.find? (·.id == id)

/-- What is found has the id that was asked for. -/
theorem id_of_find? {c : Collection α} {id : Nat} {a : Atom α} (h : c.find? id = some a) :
    a.id = id := by
  unfold find? at h
  dsimp only at h
  split at h
  · rename_i b hb
    cases h
    split at hb
    · cases hb
    · obtain ⟨_, hid⟩ := Option.filter_eq_some_iff.mp hb
      simpa using hid
  · simpa using List.find?_some h

/-! ## Search parameters -/

/-- How many neighbors to look for. -/
def setNeighborNumber (c : Collection α) (n : Nat) : Collection α :=
  { c with params := { c.params with number := n } }

/-- The norm to measure with. -/
def setNorm (c : Collection α) (norm : Norm α) : Collection α :=
  { c with params := { c.params with norm } }

/-- How near neighbors must be. A negative cutoff, or one that is not a number, is refused. -/
def setNeighborCutoff [Scalar α] (c : Collection α) (cutoff : α) :
    Except (Error α) (Collection α) :=
  if 0 ≤ cutoff then .ok { c with params := { c.params with cutoff := some cutoff } }
  else .error (.parameter (.neighborCutoff cutoff))

end Collection

end Honeycomb
