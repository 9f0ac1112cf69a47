import Honeycomb.Chirality.Basic
import Honeycomb.Number.Comparison
import Honeycomb.Number.Reading
import Honeycomb.Text.Words

/-!
# Properties of tubes

* `TubeProperty` — a number that a tube has, by its name in a filter.
* `PropertyFilter` — a comparison of a property with a value; `PropertyFilter.read`.
* `splitAtComparison` — a text around its first comparison, which is always a whole one.
-/

set_option autoImplicit false

namespace Honeycomb

/-- A number that a tube has. -/
inductive TubeProperty where
  | n
  | m
  | diameter
  | radius
  | circumference
  | axialPeriod
  | hexagons
  | atoms
  | chiralAngle
  | dR
deriving Repr, DecidableEq

namespace TubeProperty

/-- All properties. -/
def all : List TubeProperty :=
  [n, m, diameter, radius, circumference, axialPeriod, hexagons, atoms, chiralAngle, dR]

/-- The name of a property in a filter. -/
def name : TubeProperty → String
  | n => "n"
  | m => "m"
  | diameter => "dt"
  | radius => "rt"
  | circumference => "Ch"
  | axialPeriod => "T"
  | hexagons => "N"
  | atoms => "Natoms"
  | chiralAngle => "chiral_angle"
  | dR => "dR"

/-- The property with a name. -/
def ofName? (s : String) : Option TubeProperty :=
  all.find? (·.name == s)

theorem ofName?_name (p : TubeProperty) : ofName? p.name = some p := by
  cases p <;> decide

/-- Reads the name of a property. -/
def read {α : Type} (s : String) : Except (Error α) TubeProperty :=
  match ofName? s with
  | some p => .ok p
  | none => .error (.parameter (.propertyName s))

/-- The value of a property for a bond length; the chiral angle is in degrees. -/
def value {α : Type} [Scalar α] (p : TubeProperty) (c : Chirality) (bond : α) : α :=
  match p with
  | n => Scalar.ofNat c.n
  | m => Scalar.ofNat c.m
  | diameter => c.diameter bond
  | radius => c.radius bond
  | circumference => c.circumference bond
  | axialPeriod => c.axialPeriod bond
  | hexagons => Scalar.ofInt c.hexagons
  | atoms => Scalar.ofNat c.atomCount
  | chiralAngle => Scalar.degrees c.chiralAngle
  | dR => Scalar.ofInt c.dR

end TubeProperty

/-- A condition on a property. -/
structure PropertyFilter (α : Type) where
  property : TubeProperty
  comparison : Comparison
  value : α
deriving Repr, DecidableEq

/-- The tube satisfies the condition. -/
def PropertyFilter.accepts {α : Type} [Scalar α] (f : PropertyFilter α) (c : Chirality)
    (bond : α) : Bool :=
  f.comparison.holds (f.property.value c bond) f.value

/-- What stands before and after the first comparison. An equals sign that follows its first
character belongs to it. -/
def splitAtComparison : List Char → Option (List Char × Comparison × List Char)
  | [] => none
  | c :: rest =>
    let doubled := rest.head? == some '='
    match Comparison.ofChar? c doubled with
    | some comparison => some ([], comparison, if doubled then rest.tail else rest)
    | none => (splitAtComparison rest).map fun (before, more) => (c :: before, more)

/-- Reads a property, a comparison and a number, with blanks around them. -/
def PropertyFilter.read (s : String) : Except (Error Double) (PropertyFilter Double) := do
  match splitAtComparison s.toList with
  | none => .error (.parameter (.filterWithoutComparison s))
  | some (before, comparison, after) =>
    let property ← TubeProperty.read (String.ofList (Text.trim before))
    match readDouble (Text.trim after) with
    | some value => return ⟨property, comparison, value⟩
    | none => .error (.parameter (.filterValue (String.ofList (Text.trim after))))

end Honeycomb
