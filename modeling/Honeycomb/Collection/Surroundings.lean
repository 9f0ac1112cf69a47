import Honeycomb.Collection.Basic

/-!
# Neighbors of the atoms of a collection

* `Collection.index?` — a spatial index over the current positions;
  `SpatialIndex.isStale` says whether an index is out of date.
* `Collection.queryRows` — the neighbors of each atom, by index.
* `Collection.findCoordination`, `Collection.findNeighbors` — store coordination numbers and
  neighbor lists in the atoms, or fail and change nothing.
* `Collection.neighborsOf` — the atoms that a neighbor list refers to.
* `Collection.findPoav1` — pi-orbital axes of the atoms with three neighbors.
-/

set_option autoImplicit false

namespace Honeycomb

variable {α : Type} [Scalar α]

/-- The collection was edited, or is another one, since the index was built. -/
def SpatialIndex.isStale (index : SpatialIndex α) (c : Collection α) : Bool :=
  index.revision != c.revision || index.size != c.size

omit [Scalar α] in
theorem SpatialIndex.revision_eq_of_not_isStale {index : SpatialIndex α} {c : Collection α}
    (h : index.isStale c = false) : index.revision = c.revision := by
  unfold isStale at h
  rw [Bool.or_eq_false_iff, bne_eq_false_iff_eq] at h
  exact h.1

namespace Collection

/-- An index over the current positions; none when there are no atoms. -/
def index? (c : Collection α) : Except (Error α) (Option (SpatialIndex α)) :=
  SpatialIndex.ofPoints? c.positions c.params.norm c.revision

/-- The at most `n` closest neighbors of each atom that are below the cutoff. -/
@[specialize]
def queryRows (c : Collection α) (n : Nat) (cutoff : Option α) :
    Except (Error α) (List (List (Hit α))) := do
  match ← c.index? with
  | some index => return index.query n cutoff
  | none => return []

/-- Stores coordination numbers. -/
@[specialize]
def storeCoordination (c : Collection α) (rows : List (List (Hit α))) (cutoff : Option α) :
    Collection α :=
  { c with atoms := c.atoms.zipWith (fun a row => a.withCoordination (countBelow cutoff row)) rows }

/-- The references that a row of hits stands for. -/
def refsOf (ids : Array Nat) (row : List (Hit α)) : List (NeighborRef α) :=
  row.filterMap fun hit => (ids[hit.index]?).map fun id => ⟨id, hit.distance⟩

/-- Stores neighbor lists. -/
@[specialize]
def storeNeighbors (c : Collection α) (rows : List (List (Hit α))) (cutoff : Option α) :
    Collection α :=
  let ids := c.ids.toArray
  { c with
    atoms := c.atoms.zipWith (fun a row =>
      a.withNeighbors (refsOf ids (row.filter fun hit => isBelow cutoff hit.distance))) rows }

/-- Finds and stores the coordination number of each atom: its neighbors below the cutoff, at
most `n`. -/
@[specialize]
def findCoordination (c : Collection α) (n : Nat) (cutoff : Option α) :
    Except (Error α) (Collection α) := do
  match ← c.index? with
  | some index => return c.storeCoordination (index.closest n cutoff) cutoff
  | none => return c.storeCoordination [] cutoff

/-- Finds and stores the neighbor list of each atom. -/
@[specialize]
def findNeighbors (c : Collection α) (n : Nat) (cutoff : Option α) :
    Except (Error α) (Collection α) := do
  return c.storeNeighbors (← c.queryRows n cutoff) cutoff

/-- Coordination numbers under the search parameters of the collection. -/
@[specialize]
def updateCoordination (c : Collection α) : Except (Error α) (Collection α) :=
  c.findCoordination c.params.number c.params.cutoff

/-- Neighbor lists under the search parameters of the collection. -/
@[specialize]
def updateNeighbors (c : Collection α) : Except (Error α) (Collection α) :=
  c.findNeighbors c.params.number c.params.cutoff

/-- The stored coordination numbers, zero where none is stored. -/
def coordinationNumbers (c : Collection α) : List Nat :=
  c.atoms.map fun a => a.coordination.getD 0

/-- The stored neighbor lists, empty where none is stored. -/
def neighborLists (c : Collection α) : List (List (NeighborRef α)) :=
  c.atoms.map fun a => a.neighbors.getD []

/-- The atoms that the neighbor list of an atom refers to. References to atoms that are not
here are skipped. -/
def neighborsOf (c : Collection α) (a : Atom α) : List (Atom α) :=
  (a.neighbors.getD []).filterMap fun ref => c.find? ref.id

/-- The pi-orbital axis of an atom whose neighbor list leads to exactly three atoms. -/
def poav1Of (c : Collection α) (a : Atom α) : Option (Poav α) :=
  match c.neighborsOf a with
  | [p, q, r] =>
    Poav.equalAngles?
      ⟨p.position - a.position, q.position - a.position, r.position - a.position⟩
  | _ => none

/-- Stores the pi-orbital axes of the atoms with three neighbors. -/
def findPoav1 (c : Collection α) : Collection α :=
  { c with
    atoms := c.atoms.map fun a =>
      match c.poav1Of a with
      | some p => a.withPoav p
      | none => a }

/-- The number of atoms that `findPoav1` finds an axis for. -/
def poav1Count (c : Collection α) : Nat :=
  c.atoms.countP fun a => (c.poav1Of a).isSome

end Collection

end Honeycomb
