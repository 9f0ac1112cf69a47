import Honeycomb.Number.Digits
import Honeycomb.Structure.Tube
import Honeycomb.Text.Words

/-!
# Designs

* `Design` — the parameters of a structure that can be generated: sheets, a tube, or unrolled
  tubes.
* `Design.unitCell`, `Design.scaling`, `Design.stack` — how it is made.
* `Design.fileStem`, `Design.description` — what it is called.
-/

set_option autoImplicit false

namespace Honeycomb

/-- A number of things: `1cell`, `3cells`. -/
def pluralize (count : Nat) (noun : String) : String :=
  toString count ++ noun ++ if count = 1 then "" else "s"

/-- The parameters of a structure. -/
inductive Design (α : Type) where
  | sheet (g : Graphene α)
  | tube (t : Tube α)
  | flat (t : FlatTube α)

/-- The layers of a design that has some, and the axis they are stacked along. -/
structure Stack (α : Type) where
  layers : Layers α
  axis : Axis

namespace Design

variable {α : Type} [Scalar α]

/-- Two sheets, shifted as in graphite, the second turned about z. -/
def bilayer (g : Graphene α) (spacing rotation : α) (isDegrees : Bool) :
    Except (Error α) (Design α) := do
  let layers ← Layers.ofCount 2 spacing
  return sheet (g.withLayers ((layers.withShift g.abShift).withIncrement rotation isDegrees))

/-- The unit cell. -/
def unitCell : Design α → Except (Error α) (UnitCell α)
  | sheet g => g.unitCell
  | tube t => t.unitCell
  | flat t => t.unitCell

/-- The scaling matrix. -/
def scaling : Design α → Except (Error α) ScalingMatrix
  | sheet g => g.scaling
  | tube t => t.scaling
  | flat t => t.scaling

/-- How layers are stacked. A tube has none. -/
def stack? : Design α → Option (Stack α)
  | sheet g => some ⟨g.layers, .z⟩
  | tube _ => none
  | flat t => some ⟨t.layers, .y⟩

/-- The name of a file without its extension. -/
def fileStem : Design Double → String
  | sheet g =>
    let layers := toString g.layers.count ++ "layer_graphene_"
    match g.cell with
    | .conventional armchair zigzag =>
      layers ++ plainText armchair ++ "nmx" ++ plainText zigzag ++ "nm"
    | .primitive edge => layers ++ "primitive_" ++ plainText edge ++ "nm"
  | tube t =>
    let index (n : Nat) : String := if n < 10 then "0" ++ toString n else toString n
    index t.chirality.n ++ index t.chirality.m ++ "_" ++ pluralize t.cells "cell"
  | flat t =>
    "unrolled_" ++ t.chirality.text ++ "_" ++ pluralize t.cellsAround "cell" ++ "x" ++
      pluralize t.cellsAlong "cell"

/-- A line that describes the structure. -/
def description : Design Double → String
  | sheet g =>
    let kind :=
      match g.cell with
      | .conventional _ _ => "conventional"
      | .primitive _ => "primitive"
    toString g.layers.count ++ "-layer " ++ g.basis.first ++ g.basis.second ++ " graphene (" ++
      kind ++ " cell, bond " ++ plainText g.bond ++ " A)"
  | tube t =>
    t.basis.first ++ t.basis.second ++ " SWNT " ++ t.chirality.text ++ " dt=" ++
      fixedText 4 t.diameter ++ " A, " ++ pluralize t.cells " cell"
  | flat t =>
    toString t.layers.count ++ "-layer unrolled " ++ t.basis.first ++ t.basis.second ++
      " SWNT " ++ t.chirality.text ++ ", " ++ pluralize t.cellsAround " cell" ++ " x " ++
      pluralize t.cellsAlong " cell"

end Design

end Honeycomb
