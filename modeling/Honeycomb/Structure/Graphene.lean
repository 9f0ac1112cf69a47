import Honeycomb.Chirality.Basic
import Honeycomb.Crystal.Supercell
import Honeycomb.Structure.Layers

/-!
# Graphene

* `SheetCell` — which cell a sheet is made of, with the lengths of its edges in nanometers.
* `Graphene` — the cell, the bond length, the elements of the two sublattices, and the layers.
* `Graphene.r1`, `Graphene.r2`, `Graphene.unitCell` — the periods and the atoms of a cell.
* `Graphene.repeats`, `Graphene.scaling` — how many cells cover the edges.
-/

set_option autoImplicit false

namespace Honeycomb

/-- A count of 32 bits read as a signed one: counts from `2 ^ 31` on turn negative. -/
def signedCount (n : Nat) : Int :=
  Int.bmod n (Nat.pow 2 32)

/-- How many periods, at least one, cover a length in nanometers. -/
def cellsToCover {α : Type} [Scalar α] (length period : α) : Nat :=
  Scalar.toCount (Scalar.greater (Scalar.ceil (10.0 * length / period)) 1)

/-- The cell of a sheet. The conventional cell is a rectangle of four atoms with the zigzag edge
along x and the armchair edge along y; the primitive one a rhombus of two atoms. -/
inductive SheetCell (α : Type) where
  | conventional (armchairEdge zigzagEdge : α)
  | primitive (edge : α)
deriving Repr, DecidableEq

/-- The elements of the two sublattices. -/
structure Basis where
  first : String := "C"
  second : String := "C"
deriving Repr, DecidableEq

/-- One or more sheets of graphene. -/
structure Graphene (α : Type) where
  cell : SheetCell α
  bond : α
  basis : Basis
  layers : Layers α

/-- A bond length is positive. -/
def checkBond {α : Type} [Scalar α] (bond : α) : Except (Error α) Unit :=
  if 0 < bond then .ok () else .error (.parameter (.bondLength bond))

namespace Graphene

variable {α : Type} [Scalar α]

/-- The length of an edge is positive and finite. -/
def checkEdge (name : String) (length : α) : Except (Error α) Unit :=
  if 0 < length && Scalar.isFinite length then .ok ()
  else .error (.parameter (.edgeLength name length))

/-- A single sheet of carbon. -/
def ofCell (cell : SheetCell α) : Graphene α :=
  ⟨cell, carbonBond, {}, .single⟩

/-- A rectangular sheet. -/
def conventional (armchairEdge zigzagEdge : α) : Except (Error α) (Graphene α) := do
  checkEdge "armchair_edge_length" armchairEdge
  checkEdge "zigzag_edge_length" zigzagEdge
  return ofCell (.conventional armchairEdge zigzagEdge)

/-- A rhombic sheet. -/
def primitive (edge : α) : Except (Error α) (Graphene α) := do
  checkEdge "edge_length" edge
  return ofCell (.primitive edge)

/-- Another bond length. -/
def withBond (g : Graphene α) (bond : α) : Except (Error α) (Graphene α) :=
  (checkBond bond).map fun _ => { g with bond }

/-- Other elements. -/
def withBasis (g : Graphene α) (basis : Basis) : Graphene α :=
  { g with basis }

/-- Other layers. -/
def withLayers (g : Graphene α) (layers : Layers α) : Graphene α :=
  { g with layers }

/-- By how much the second of two layers is shifted in graphite. -/
def abShift (g : Graphene α) : Vec3 α :=
  ⟨0, g.bond, 0⟩

/-- The period of the honeycomb. -/
def period (g : Graphene α) : α :=
  Scalar.sqrt3 * g.bond

/-- The first vector of the cell. -/
def r1 (g : Graphene α) : Vec3 α :=
  ⟨g.period, 0, 0⟩

/-- The second vector of the cell. -/
def r2 (g : Graphene α) : Vec3 α :=
  match g.cell with
  | .conventional _ _ => ⟨0, 3.0 * g.bond, 0⟩
  | .primitive _ => ⟨g.period / 2.0, g.period * Scalar.sqrt3 / 2.0, 0⟩

/-- The lattice of the cell, with room for two layers. -/
def lattice (g : Graphene α) : Except (Error α) (Lattice α) :=
  Lattice.ofVectors g.r1 g.r2 ⟨0, 0, 2.0 * g.layers.properSpacing⟩

/-- The elements and positions of the atoms of a cell. -/
def sites (g : Graphene α) : List (String × Vec3 α) :=
  let a := g.period
  let b := g.bond
  match g.cell with
  | .conventional _ _ =>
    [(g.basis.first, 0), (g.basis.second, ⟨a / 2.0, b / 2.0, 0⟩),
      (g.basis.first, ⟨a / 2.0, 3.0 * b / 2.0, 0⟩), (g.basis.second, ⟨0, 2.0 * b, 0⟩)]
  | .primitive _ => [(g.basis.first, 0), (g.basis.second, (g.r1 + g.r2) / (3.0 : α))]

/-- The unit cell. -/
def unitCell (g : Graphene α) : Except (Error α) (UnitCell α) :=
  g.lattice.map fun lattice => ⟨lattice, g.sites.map fun (element, r) => Atom.placed element r⟩

/-- How many cells along each vector cover the edges. -/
def repeats (g : Graphene α) : Nat × Nat :=
  match g.cell with
  | .conventional armchairEdge zigzagEdge =>
    (cellsToCover zigzagEdge g.r1.norm, cellsToCover armchairEdge g.r2.norm)
  | .primitive edge => (cellsToCover edge g.period, cellsToCover edge g.period)

/-- The scaling matrix of the sheet. -/
def scaling (g : Graphene α) : Except (Error α) ScalingMatrix :=
  ScalingMatrix.diagonal (signedCount g.repeats.1) (signedCount g.repeats.2) 1

/-- The area of the sheet in square nanometers. -/
def area (g : Graphene α) : α :=
  match g.cell with
  | .conventional armchairEdge zigzagEdge => armchairEdge * zigzagEdge
  | .primitive edge => edge * edge * Scalar.sqrt3 / 2.0

end Graphene

end Honeycomb
