import Std.Data.TreeMap
import Honeycomb.Collection.Measure
import Honeycomb.Collection.Numbering
import Honeycomb.File.Structure
import Honeycomb.Number.Digits
import Honeycomb.Number.Reading
import Honeycomb.Text.Words

/-!
# LAMMPS data files

A comment line, header lines, and sections that start with a title. Atoms are in full style:
id, molecule, type, charge and coordinates.

* `LammpsData.read` — reads a file. What follows a hash sign is a remark; behind a mass it names
  the element. Sections other than masses, atoms and velocities are skipped.
* `LammpsData.Draft` — what has been read so far; `Draft.addLine` reads one more line.
* `LammpsData.typeIds` — the types that are written.
* `LammpsData.write` — writes a file, with some space between the atoms and the box.
-/

set_option autoImplicit false

namespace Honeycomb.LammpsData

/-- A part of a file. -/
inductive Section where
  | header
  | masses
  | atoms
  | velocities
  | other
deriving Repr, DecidableEq

/-- The section with a title. -/
def Section.ofTitle (title : List Char) : Section :=
  match (Text.words title).head? with
  | some word =>
    if word = "Masses".toList then .masses
    else if word = "Atoms".toList then .atoms
    else if word = "Velocities".toList then .velocities
    else .other
  | none => .other

/-- The line of an atom. -/
structure AtomLine where
  id : Nat
  molecule : Nat
  type : Nat
  charge : Double
  position : Vec3 Double
deriving Repr

/-- Mass and element of a type. -/
structure MassLine where
  mass : Double
  label : Option String
deriving Repr

/-- The lower and the upper end of a box edge. -/
structure Bounds where
  lower : Double := 0
  upper : Double := 0
deriving Repr

/-- What has been read of a file. -/
structure Draft where
  current : Section := .header
  declared : Option Nat := none
  xBounds : Bounds := {}
  yBounds : Bounds := {}
  zBounds : Bounds := {}
  hasBox : Bool := false
  masses : Std.TreeMap Nat MassLine := ∅
  /-- The lines of the atoms, the last one first. -/
  atomLines : List AtomLine := []
  velocities : Std.TreeMap Nat (Vec3 Double) := ∅

/-- A fault in a line. -/
def fault {β : Type} (line : Nat) (f : FormatFault) : Except (Error Double) β :=
  .error (.format line f)

/-- Reads the field at an index; `what` says in messages what it is. -/
def readField {β : Type} (parse : List Char → Option β) (line : Nat) (fields : List (List Char))
    (i : Nat) (what : String) : Except (Error Double) β :=
  match fields[i]? with
  | none => fault line (.dataMissing what)
  | some field =>
    match parse field with
    | some b => .ok b
    | none => fault line (.dataInvalid what (String.ofList field))

/-- Reads the ends of a box edge. -/
def readBounds (line : Nat) (fields : List (List Char)) : Except (Error Double) Bounds := do
  let lower ← readField readDouble line fields 0 "lower bound"
  let upper ← readField readDouble line fields 1 "upper bound"
  return ⟨lower, upper⟩

/-- Reads the fields of an atom. -/
def readAtomLine (line : Nat) (fields : List (List Char)) : Except (Error Double) AtomLine := do
  if fields.length < 7 then fault line .dataFields
  else
    let id ← readField readCount line fields 0 "atom id"
    let molecule ← readField readCount line fields 1 "molecule id"
    let type ← readField readCount line fields 2 "atom type"
    let charge ← readField readDouble line fields 3 "charge"
    let x ← readField readDouble line fields 4 "x"
    let y ← readField readDouble line fields 5 "y"
    let z ← readField readDouble line fields 6 "z"
    return ⟨id, molecule, type, charge, ⟨x, y, z⟩⟩

/-- Reads the fields of a velocity. -/
def readVelocity (line : Nat) (fields : List (List Char)) :
    Except (Error Double) (Nat × Vec3 Double) := do
  let id ← readField readCount line fields 0 "atom id"
  let x ← readField readDouble line fields 1 "vx"
  let y ← readField readDouble line fields 2 "vy"
  let z ← readField readDouble line fields 3 "vz"
  return (id, ⟨x, y, z⟩)

/-- The contents of a line without blanks around them, and the remark behind a hash sign. -/
def splitRemark (text : List Char) : List Char × Option (List Char) :=
  match Text.splitAtFirst '#' text with
  | some (content, remark) => (Text.trim content, some (Text.trim remark))
  | none => (Text.trim text, none)

namespace Draft

/-- Reads a line of the header. -/
def addHeader (d : Draft) (line : Nat) (content : List Char) (fields : List (List Char)) :
    Except (Error Double) Draft :=
  let endsWith (tag : String) : Bool := tag.toList.isSuffixOf content
  if endsWith "atom types" then .ok d
  else if endsWith "atoms" then
    (readField readCount line fields 0 "atom count").map fun n => { d with declared := some n }
  else if endsWith "xlo xhi" then
    (readBounds line fields).map fun b => { d with xBounds := b, hasBox := true }
  else if endsWith "ylo yhi" then
    (readBounds line fields).map fun b => { d with yBounds := b, hasBox := true }
  else if endsWith "zlo zhi" then
    (readBounds line fields).map fun b => { d with zBounds := b, hasBox := true }
  else .ok d

/-- Reads a mass. -/
def addMass (d : Draft) (line : Nat) (fields : List (List Char)) (remark : Option (List Char)) :
    Except (Error Double) Draft := do
  let type ← readField readCount line fields 0 "atom type"
  let mass ← readField readDouble line fields 1 "mass"
  let label := (remark.filter (!·.isEmpty)).map String.ofList
  return { d with masses := d.masses.insert type ⟨mass, label⟩ }

/-- Reads a line that is neither blank nor a title. -/
def addContent (d : Draft) (line : Nat) (content : List Char) (remark : Option (List Char)) :
    Except (Error Double) Draft :=
  let fields := Text.words content
  match d.current with
  | .header => d.addHeader line content fields
  | .masses => d.addMass line fields remark
  | .atoms => (readAtomLine line fields).map fun a => { d with atomLines := a :: d.atomLines }
  | .velocities =>
    (readVelocity line fields).map fun (id, v) =>
      { d with velocities := d.velocities.insert id v }
  | .other => .ok d

/-- Reads a line. One that starts with a letter is the title of a section. -/
def addLine (d : Draft) (line : Nat) (text : List Char) : Except (Error Double) Draft :=
  match splitRemark text with
  | ([], _) => .ok d
  | (c :: rest, remark) =>
    if c.isAlpha then .ok { d with current := .ofTitle (c :: rest) }
    else d.addContent line (c :: rest) remark

/-- Reads lines of which the first has the given number. -/
def addLines (d : Draft) (line : Nat) : List (List Char) → Except (Error Double) Draft
  | [] => .ok d
  | text :: more =>
    match d.addLine line text with
    | .error e => .error e
    | .ok next => next.addLines (line + 1) more

/-- The element of a type: as labelled, or by its mass. -/
def elementOf (m : MassLine) : String :=
  match m.label with
  | some label => label
  | none =>
    match Element.closest? m.mass 0.05 with
    | some e => e.symbol
    | none => "X"

/-- The atom of a line, with what the other sections say about its type and its id. -/
def atomOf (d : Draft) (a : AtomLine) : Atom Double :=
  let m := (d.masses[a.type]?).getD ⟨0, none⟩
  { element := elementOf m
    id := some a.id
    molecule := some a.molecule
    type := some a.type
    charge := some a.charge
    position := some a.position
    mass := if 0 < m.mass then some m.mass else none
    velocity := d.velocities[a.id]? : AtomSpec Double }.build

/-- The atoms in order. -/
def atoms (d : Draft) : List (Atom Double) :=
  d.atomLines.reverse.map d.atomOf

/-- The box as a cell; none when there is no box or it has no volume. -/
def lattice? (d : Draft) : Option (Lattice Double) :=
  let edge (b : Bounds) : Double := b.upper - b.lower
  if d.hasBox then
    (Lattice.ofVectors ⟨edge d.xBounds, 0, 0⟩ ⟨0, edge d.yBounds, 0⟩
      ⟨0, 0, edge d.zBounds⟩).toOption
  else none

/-- The number of atoms is the declared one. -/
def isComplete (d : Draft) : Bool :=
  match d.declared with
  | none => true
  | some n => n == d.atomLines.length

end Draft

/-- Reads a file. -/
def read (text : String) : Except (Error Double) StructureFile := do
  let lines := Text.lines text.toList
  let draft ← ({} : Draft).addLines 2 lines.tail
  if draft.isComplete then
    return ⟨draft.atoms, String.ofList (Text.trim (lines.headD [])), draft.lattice?⟩
  else fault 0 (.dataAtoms (draft.declared.getD 0) draft.atomLines.length)

/-- The types that are written: those of the atoms, or the numbers of their elements by first
appearance when some atom has no type. -/
def typeIds {α : Type} (atoms : List (Atom α)) : List Nat :=
  if atoms.all fun a => 0 < a.type then atoms.map (·.type)
  else firstAppearance (atoms.map (·.element))

/-- The ids that are written: those of the atoms, or their places when some id is zero or occurs
twice. -/
def writtenIds {α : Type} (atoms : List (Atom α)) : List Nat :=
  let ids := atoms.map (·.id)
  if allDistinct ids && !ids.contains 0 then ids else List.range' 1 ids.length

/-- Mass and element of the first atom of each type. -/
def massTable {α : Type} (atoms : List (Atom α)) : Std.TreeMap Nat (α × String) :=
  (atoms.zip (typeIds atoms)).foldl
    (fun table (a, t) => table.insertIfNew t (a.mass, a.element)) ∅

/-- The box around the atoms, with space on each side; no box for no atoms. -/
def paddedBox (atoms : List (Atom Double)) (padding : Double) : Cuboid Double :=
  match Cuboid.around? (atoms.map (·.position)) with
  | some box => ⟨box.low.map (· + -padding), box.high.map (· + padding)⟩
  | none => ⟨0, 0⟩

/-- The space that is usual between the atoms and the box. -/
def usualPadding : Double := 1.0

/-- Three numbers with eight decimals. -/
def vectorText (v : Vec3 Double) : String :=
  " ".intercalate (v.toList.map (fixedText 8))

/-- The header. -/
def headerLines (atoms : List (Atom Double)) (comment : String) (padding : Double) : List String :=
  let box := paddedBox atoms padding
  let edge (axis : Axis) : String :=
    " ".intercalate [fixedText 8 (box.low.along axis), fixedText 8 (box.high.along axis),
      axis.name ++ "lo", axis.name ++ "hi"]
  [oneLine comment, "", toString atoms.length ++ " atoms",
    toString (massTable atoms).size ++ " atom types", "", edge .x, edge .y, edge .z]

/-- The section of the masses. -/
def massLines (atoms : List (Atom Double)) : List String :=
  ["", "Masses", ""] ++ (massTable atoms).toList.map fun (t, mass, element) =>
    toString t ++ " " ++ fixedText 4 mass ++ " # " ++ element

/-- The section of the atoms. -/
def atomLines (atoms : List (Atom Double)) : List String :=
  let rows := atoms.zip ((writtenIds atoms).zip (typeIds atoms))
  ["", "Atoms # full", ""] ++ rows.map fun (a, id, t) =>
    " ".intercalate [toString id, toString a.molecule, toString t, fixedText 6 a.charge,
      vectorText a.position]

/-- The section of the velocities, which is there only when some atom moves. -/
def velocityLines (atoms : List (Atom Double)) : List String :=
  if atoms.any fun a => !(a.velocity == 0) then
    ["", "Velocities", ""] ++ (atoms.zip (writtenIds atoms)).map fun (a, id) =>
      toString id ++ " " ++ vectorText a.velocity
  else []

/-- Writes a file. -/
def write (atoms : List (Atom Double)) (comment : String) (padding : Double) : String :=
  let lines := headerLines atoms comment padding ++ massLines atoms ++ atomLines atoms ++
    velocityLines atoms
  String.join (lines.map (· ++ "\n"))

end Honeycomb.LammpsData
