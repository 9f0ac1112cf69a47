import Honeycomb.Collection.Motion
import Honeycomb.Collection.Numbering
import Honeycomb.File.Dispatch
import Honeycomb.Geometry.BoundVector
import Honeycomb.Structure.Design

/-!
# Generators

* `Generator` — a design, the structure made from it so far, and how far that got.
* `Generator.generate` — makes the structure from the design; what was there before is dropped
  first, also when making it fails.
* `Generator.finalize` — ids from one on, types, and the type table.
* `Generator.save` — writes the structure to a file, making it first if nothing was made yet.
* `resolveOutput` — the path that a structure is saved to.
-/

set_option autoImplicit false

namespace Honeycomb

/-- How far a structure has been made. -/
inductive Stage where
  | uninitialized
  | basisBuilt
  | tiled
  | layersTransformed
  | finalized
deriving Repr, DecidableEq

/-- The name of a stage. -/
def Stage.name : Stage → String
  | uninitialized => "uninitialized"
  | basisBuilt => "basis built"
  | tiled => "tiled"
  | layersTransformed => "layers transformed"
  | finalized => "finalized"

/-- A design and what has been made from it. For unrolled tubes `sheetShift` leads from the
centroid of the tiled sheet to the one of the first layer. -/
structure Generator (α : Type) [Scalar α] where
  design : Design α
  atoms : Collection α
  lattice : Option (Lattice α)
  stage : Stage
  sheetShift : BoundVector α

namespace Generator

section

variable {α : Type} [Scalar α]

/-- A generator that has made nothing yet. -/
def ofDesign (design : Design α) : Edit (Generator α) := do
  return ⟨design, ← Collection.ofAtoms [], none, .uninitialized, .zero⟩

/-- Drops what has been made. -/
def reset (g : Generator α) : Edit (Generator α) := do
  return { g with atoms := ← g.atoms.clear, lattice := none, stage := .uninitialized }

/-- Gives the atoms ids from one on and types by their elements, and makes the type table. -/
def finalize (g : Generator α) : Generator α :=
  { g with
    atoms := ((g.atoms.assignIds 1).assignTypes).rebuildTypeTable
    stage := .finalized }

/-- The atoms of a tube that has been tiled: one molecule. -/
def arrangeTube (tiled : Collection α) : Edit (Collection α) :=
  tiled.modifyAll fun a => { a with molecule := 1 }

/-- The way from the centroid of the tiled sheet to the one of the first layer; its z component
counts once for each layer. -/
def shiftBetween (layers : Layers α) (tiled layer : Collection α) : BoundVector α :=
  let shift := BoundVector.between tiled.centroid layer.centroid
  shift.setComponent .z (Scalar.ofNat layers.count * shift.components.z)

/-- Arranges a tiled sheet: its centroid is moved to the origin, and its layers are stacked. -/
def arrange (g : Generator α) (tiled : Collection α) : Edit (Generator α) := do
  match g.design.stack? with
  | none => return { g with atoms := ← arrangeTube tiled, stage := .tiled }
  | some stack =>
    let layer ← tiled.center
    let atoms ← Collection.ofAtoms (stack.layers.stack stack.axis layer.atoms)
    return { g with
      atoms
      stage := if 1 < stack.layers.count then .layersTransformed else .tiled
      sheetShift :=
        match g.design with
        | .flat _ => shiftBetween stack.layers tiled layer
        | _ => g.sheetShift }

/-- The supercell of a unit cell of the design. -/
def supercell (design : Design α) (cell : UnitCell α) : Except (Error α) (Supercell α) := do
  cell.tile (← design.scaling)

/-- Makes the structure, with ids, types and type table if asked for. -/
def generate (g : Generator α) (finalized : Bool) :
    Edit (Except (Error α) Unit × Generator α) := do
  let empty ← g.reset
  match g.design.unitCell with
  | .error e => return (.error e, empty)
  | .ok cell =>
    match supercell g.design cell with
    | .error e => return (.error e, { empty with stage := .basisBuilt })
    | .ok super =>
      let tiled ← Collection.ofAtoms super.atoms
      let made ← arrange { empty with lattice := some super.lattice } tiled
      return (.ok (), if finalized then made.finalize else made)

/-- The atoms of the layer at an index. -/
def layer (g : Generator α) (i : Nat) : List (Atom α) :=
  g.atoms.atoms.filter (·.molecule == i + 1)

end

/-- The path to save to. A name with the extension of a known format is used as it is; another
name, or the stem that stands for no name, gets the extension of the format. -/
def resolveOutput (name : Option String) (stem : String) (directory : Option String)
    (format : Option FileFormat) : String :=
  let isKnown (n : String) : Bool := (FileFormat.ofPath n : Except (Error Double) _).isOk
  let known : Option String := name.filter isKnown
  match known with
  | some n =>
    match directory with
    | some d => Path.join d n
    | none => n
  | none => outputPath (name.getD stem) directory (format.getD .xyz)

/-- Where and how a structure is saved. -/
structure SaveRequest where
  name : Option String := none
  directory : Option String := none
  format : Option FileFormat := none
  center : Bool := false
  comment : Option String := none
deriving Repr

/-- A step that draws revisions, beside other effects. -/
def lift {m : Type → Type} [Monad m] {β : Type} (step : Edit β) : StateT Revision m β :=
  fun r => pure (step.run r)

variable {m : Type → Type} [Monad m]

/-- Writes the structure that has been made, after moving its centroid to the origin if asked
for, and gives the path. -/
def saveMade (files : FileAccess m) (g : Generator Double) (request : SaveRequest) :
    StateT Revision m (Except (Error Double) String × Generator Double) := do
  let path := resolveOutput request.name g.design.fileStem request.directory request.format
  let atoms ← lift (if request.center then g.atoms.center else pure g.atoms)
  let g := { g with atoms }
  let comment := request.comment.getD g.design.description
  let written : Except (Error Double) Unit ←
    (writeStructure files path atoms.atoms request.format comment : m _)
  return (written.map fun _ => path, g)

/-- Writes the structure. It is made first if nothing was made yet. -/
def save (files : FileAccess m) (g : Generator Double) (request : SaveRequest) :
    StateT Revision m (Except (Error Double) String × Generator Double) := do
  if g.stage = .uninitialized then
    match ← lift (g.generate true) with
    | (.error e, g) => return (.error e, g)
    | (.ok _, g) => saveMade files g request
  else saveMade files g request

end Generator

end Honeycomb
