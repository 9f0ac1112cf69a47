import Honeycomb.Element
import Honeycomb.Poav

/-!
# Atoms

* `Atom` — identity, element, motion and membership of one atom, with three bundles that are
  attached when needed: what is known about its neighbors, its pi-orbital axes, and its
  counterpart in a reference frame.
* `AtomSpec` — an atom to be made; whatever is not given takes its value from the element
  table or is zero.
* `Atom.forgetNeighbors` — drops everything that was derived from neighbor lists.
-/

set_option autoImplicit false

namespace Honeycomb

/-- A neighbor, by its id, and its distance when the list was made. -/
structure NeighborRef (α : Type) where
  id : Nat
  distance : α
deriving Repr, DecidableEq

/-- What is known about the neighbors of an atom. -/
structure NeighborData (α : Type) where
  coordination : Option Nat := none
  neighbors : Option (List (NeighborRef α)) := none
deriving Repr, DecidableEq

/-- The counterpart of an atom in a reference frame, and where it is there. -/
structure FrameLink (α : Type) where
  id : Option Nat := none
  position : Option (Vec3 α) := none
deriving Repr, DecidableEq

/-- An atom. The id is zero until one is assigned, the type likewise; the atomic number is
zero for an unknown element. -/
structure Atom (α : Type) where
  id : Nat
  element : String
  atomicNumber : Nat
  position : Vec3 α
  velocity : Vec3 α
  charge : α
  mass : α
  molecule : Nat
  type : Nat
  surroundings : Option (NeighborData α)
  frameLink : Option (FrameLink α)
  poav : Option (PoavSlots α)
deriving Repr, DecidableEq

/-- An atom to be made. -/
structure AtomSpec (α : Type) where
  element : String
  id : Option Nat := none
  position : Option (Vec3 α) := none
  velocity : Option (Vec3 α) := none
  charge : Option α := none
  mass : Option α := none
  molecule : Option Nat := none
  type : Option Nat := none
  withSurroundings : Bool := false
  frameLink : Option (FrameLink α) := none
  withPoav : Bool := false
deriving Repr

/-- The atom that is asked for. -/
def AtomSpec.build {α : Type} [Scalar α] (spec : AtomSpec α) : Atom α where
  id := spec.id.getD 0
  element := spec.element
  atomicNumber := atomicNumberOf spec.element
  position := spec.position.getD 0
  velocity := spec.velocity.getD 0
  charge := spec.charge.getD 0
  mass := spec.mass.getD (standardMassOf spec.element)
  molecule := spec.molecule.getD 0
  type := spec.type.getD 0
  surroundings := if spec.withSurroundings then some {} else none
  frameLink := spec.frameLink
  poav := if spec.withPoav then some {} else none

namespace Atom

variable {α : Type}

/-- The atom of an element at a point. -/
def placed [Scalar α] (element : String) (position : Vec3 α) : Atom α :=
  { element, position := some position : AtomSpec α }.build

/-- The cached coordination number. -/
def coordination (a : Atom α) : Option Nat :=
  a.surroundings.bind (·.coordination)

/-- The cached neighbor list. -/
def neighbors (a : Atom α) : Option (List (NeighborRef α)) :=
  a.surroundings.bind (·.neighbors)

/-- Stores a coordination number. -/
def withCoordination (a : Atom α) (n : Nat) : Atom α :=
  { a with surroundings := some { a.surroundings.getD {} with coordination := some n } }

/-- Stores a neighbor list. -/
def withNeighbors (a : Atom α) (refs : List (NeighborRef α)) : Atom α :=
  { a with surroundings := some { a.surroundings.getD {} with neighbors := some refs } }

/-- The result of a pi-orbital analysis. -/
def poavOf (a : Atom α) (kind : PoavKind) : Option (Poav α) :=
  a.poav.bind (·.get kind)

/-- Stores the result of a pi-orbital analysis under its kind. -/
def withPoav (a : Atom α) (p : Poav α) : Atom α :=
  { a with poav := some ((a.poav.getD {}).put p) }

/-- Drops the neighbor list, the coordination number and the pi-orbital axes; the bundles
stay attached. -/
def forgetNeighbors (a : Atom α) : Atom α :=
  { a with surroundings := a.surroundings.map fun _ => {}, poav := a.poav.map fun _ => {} }

@[simp] theorem coordination_forgetNeighbors (a : Atom α) :
    a.forgetNeighbors.coordination = none := by
  cases h : a.surroundings <;> simp [forgetNeighbors, coordination, h]

@[simp] theorem neighbors_forgetNeighbors (a : Atom α) :
    a.forgetNeighbors.neighbors = none := by
  cases h : a.surroundings <;> simp [forgetNeighbors, neighbors, h]

@[simp] theorem poavOf_forgetNeighbors (a : Atom α) (kind : PoavKind) :
    a.forgetNeighbors.poavOf kind = none := by
  cases h : a.poav <;> cases kind <;> simp [forgetNeighbors, poavOf, h, PoavSlots.get]

/-- How far the atom is from its counterpart in the reference frame. -/
def displacement [Scalar α] (a : Atom α) : Option (Vec3 α) := do
  let link ← a.frameLink
  let r0 ← link.position
  return a.position - r0

end Atom

end Honeycomb
