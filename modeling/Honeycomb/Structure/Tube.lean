import Honeycomb.Structure.Graphene

/-!
# Nanotubes

* `fold` — a number brought between zero and a period.
* `screwSites` — the atoms of the unit cell of a tube, two for each turn of its screw; rolled up
  about the z axis, or laid flat in the plane of x and z.
* `Tube` — a tube of some unit cells along z.
* `FlatTube` — an unrolled tube, repeated along x and z and in layers along y.
-/

set_option autoImplicit false

namespace Honeycomb

section Screw

variable {α : Type} [Scalar α]

/-- A number brought between zero and a period. What is just below the period becomes zero. -/
def fold (value period : α) : α :=
  let w := Scalar.modulo value period
  if period - w < 1e-9 then 0 else w

/-- The place on a tube at an angle and a height. -/
def rolledPlace (radius angle z : α) : Vec3 α :=
  ⟨radius * Scalar.cos angle, radius * Scalar.sin angle, z⟩

/-- The place on an unrolled tube at an angle and a height. -/
def flatPlace (radius circumference angle z : α) : Vec3 α :=
  ⟨fold (radius * angle) circumference, 0, z⟩

/-- The elements and positions of the atoms of a unit cell. -/
def screwSites (c : Chirality) (bond : α) (basis : Basis) (place : α → α → Vec3 α) :
    List (String × Vec3 α) :=
  let t := c.axialPeriod bond
  let psi : α := c.psi
  let tau := c.tau bond
  let dpsi := c.dpsi bond
  let dtau := c.dtau bond
  (List.range c.hexagons.toNat).flatMap fun k =>
    let i : α := Scalar.ofNat k
    [(basis.first, place (i * psi) (fold (i * tau) t)),
      (basis.second, place (i * psi + dpsi) (fold (i * tau - dtau) t))]

/-- The atoms of the unit cell of a tube. -/
def rolledAtoms (c : Chirality) (bond : α) (basis : Basis) : List (Atom α) :=
  (screwSites c bond basis (rolledPlace (c.radius bond))).map fun (element, r) =>
    Atom.placed element r

/-- The atoms of the unit cell of an unrolled tube. -/
def flatAtoms (c : Chirality) (bond : α) (basis : Basis) : List (Atom α) :=
  (screwSites c bond basis (flatPlace (c.radius bond) (c.circumference bond))).map
    fun (element, r) => Atom.placed element r

/-- A repeat count is positive. -/
def checkRepeats (name : String) (n : Nat) : Except (Error α) Unit :=
  if n = 0 then .error (.parameter (.noRepeats name)) else .ok ()

end Screw

/-- A nanotube along z. -/
structure Tube (α : Type) where
  chirality : Chirality
  bond : α
  basis : Basis
  cells : Nat

namespace Tube

variable {α : Type} [Scalar α]

/-- A carbon tube of one unit cell. -/
def ofChirality (chirality : Chirality) : Tube α :=
  ⟨chirality, carbonBond, {}, 1⟩

/-- Another bond length. -/
def withBond (t : Tube α) (bond : α) : Except (Error α) (Tube α) :=
  (checkBond bond).map fun _ => { t with bond }

/-- Other elements. -/
def withBasis (t : Tube α) (basis : Basis) : Tube α :=
  { t with basis }

/-- Another number of unit cells. -/
def withCells (t : Tube α) (cells : Nat) : Except (Error α) (Tube α) :=
  (checkRepeats "n3" cells).map fun _ => { t with cells }

/-- The length of a unit cell. -/
def cellLength (t : Tube α) : α :=
  t.chirality.axialPeriod t.bond

/-- Enough unit cells for a length in nanometers. -/
def withLength (t : Tube α) (length : α) : Except (Error α) (Tube α) :=
  if 0 < length then .ok { t with cells := cellsToCover length t.cellLength }
  else .error (.parameter (.tubeLength length))

/-- The diameter. -/
def diameter (t : Tube α) : α :=
  t.chirality.diameter t.bond

/-- The length of the tube in nanometers. -/
def length (t : Tube α) : α :=
  Scalar.ofNat t.cells * t.cellLength / 10.0

/-- The number of atoms. -/
def atomCount (t : Tube α) : Nat :=
  t.chirality.atomCount * t.cells

/-- The lattice of a unit cell, with the distance of two graphite layers around the tube. -/
def lattice (t : Tube α) : Except (Error α) (Lattice α) :=
  let side := t.diameter + graphiteSpacing
  Lattice.ofParameters side side t.cellLength 90.0 90.0 90.0

/-- The unit cell. -/
def unitCell (t : Tube α) : Except (Error α) (UnitCell α) :=
  t.lattice.map fun lattice => ⟨lattice, rolledAtoms t.chirality t.bond t.basis⟩

/-- The scaling matrix of the tube. -/
def scaling (t : Tube α) : Except (Error α) ScalingMatrix :=
  ScalingMatrix.diagonal 1 1 (signedCount t.cells)

end Tube

/-- An unrolled nanotube in the plane of x and z; layers are stacked along y. -/
structure FlatTube (α : Type) where
  chirality : Chirality
  bond : α
  basis : Basis
  cellsAround : Nat
  cellsAlong : Nat
  layers : Layers α

namespace FlatTube

variable {α : Type} [Scalar α]

/-- One unit cell of carbon. -/
def ofChirality (chirality : Chirality) : FlatTube α :=
  ⟨chirality, carbonBond, {}, 1, 1, .single⟩

/-- Other numbers of unit cells around and along the tube. -/
def withCells (t : FlatTube α) (cellsAround cellsAlong : Nat) :
    Except (Error α) (FlatTube α) := do
  checkRepeats "n1" cellsAround
  checkRepeats "n3" cellsAlong
  return { t with cellsAround, cellsAlong }

/-- Another bond length. -/
def withBond (t : FlatTube α) (bond : α) : Except (Error α) (FlatTube α) :=
  (checkBond bond).map fun _ => { t with bond }

/-- Other elements. -/
def withBasis (t : FlatTube α) (basis : Basis) : FlatTube α :=
  { t with basis }

/-- Other layers. -/
def withLayers (t : FlatTube α) (layers : Layers α) : FlatTube α :=
  { t with layers }

/-- The lattice of a unit cell. -/
def lattice (t : FlatTube α) : Except (Error α) (Lattice α) :=
  Lattice.ofVectors ⟨t.chirality.circumference t.bond, 0, 0⟩ ⟨0, t.layers.properSpacing, 0⟩
    ⟨0, 0, t.chirality.axialPeriod t.bond⟩

/-- The unit cell. -/
def unitCell (t : FlatTube α) : Except (Error α) (UnitCell α) :=
  t.lattice.map fun lattice => ⟨lattice, flatAtoms t.chirality t.bond t.basis⟩

/-- The scaling matrix of the sheet. -/
def scaling (t : FlatTube α) : Except (Error α) ScalingMatrix :=
  ScalingMatrix.diagonal (signedCount t.cellsAround) 1 (signedCount t.cellsAlong)

end FlatTube

end Honeycomb
