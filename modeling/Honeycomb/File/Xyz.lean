import Honeycomb.Collection.Numbering
import Honeycomb.File.Structure
import Honeycomb.Number.Digits
import Honeycomb.Number.Reading
import Honeycomb.Text.Words

/-!
# XYZ files

A line with the number of atoms, a comment line, and a line for each atom: its element and its
three coordinates.

* `Xyz.read` — reads a file. Blank lines between atoms, further fields of a line and all that
  follows the last atom are ignored. Ids count the atoms, types follow the elements.
* `Xyz.latticeOf?` — the cell that a comment holds as `Lattice="…"`, nine numbers by rows.
* `Xyz.write` — writes a file, coordinates with eight decimals.
-/

set_option autoImplicit false

namespace Honeycomb.Xyz

/-- A fault in a line. -/
def fault {β : Type} (line : Nat) (f : FormatFault) : Except (Error Double) β :=
  .error (.format line f)

/-- The cell in a comment. What is not a number between the quotes is ignored. -/
def latticeOf? (comment : List Char) : Option (Lattice Double) := do
  let rest ← Text.afterFirst "Lattice=\"".toList comment
  let (inner, _) ← Text.splitAtFirst '"' rest
  match (Text.words inner).filterMap readDouble with
  | [a, b, c, d, e, f, g, h, i] =>
    (Lattice.ofVectors ⟨a, b, c⟩ ⟨d, e, f⟩ ⟨g, h, i⟩).toOption
  | _ => none

/-- Reads a coordinate. -/
def readCoordinate (line : Nat) (axis : Char) (field : List Char) : Except (Error Double) Double :=
  match readDouble field with
  | some a => .ok a
  | none => fault line (.xyzCoordinate axis (String.ofList field))

/-- The element that a field names: the symbol of a known element, or the field itself. -/
def elementOf (field : List Char) : String :=
  match Element.ofToken? field with
  | some e => e.symbol
  | none => String.ofList field

/-- Reads the fields of an atom. -/
def readAtom (line id : Nat) : List (List Char) → Except (Error Double) (Atom Double)
  | element :: x :: y :: z :: _ => do
    let x ← readCoordinate line 'x' x
    let y ← readCoordinate line 'y' y
    let z ← readCoordinate line 'z' z
    return { element := elementOf element, id := some id, position := some ⟨x, y, z⟩
             : AtomSpec Double }.build
  | _ => fault line .xyzFields

/-- Reads `wanted` atoms, of which the first has the given id, from lines of which the first has
the given number. There are fewer when the lines end before. -/
def readAtoms (wanted id line : Nat) : List (List Char) → Except (Error Double) (List (Atom Double))
  | [] => .ok []
  | text :: lines =>
    match wanted with
    | 0 => .ok []
    | wanted + 1 =>
      match Text.words text with
      | [] => readAtoms (wanted + 1) id (line + 1) lines
      | fields => do
        let a ← readAtom line id fields
        let more ← readAtoms wanted (id + 1) (line + 1) lines
        return a :: more

/-- Reads a file. -/
def read (text : String) : Except (Error Double) StructureFile := do
  match Text.lines text.toList with
  | [] => fault 1 .xyzEmpty
  | first :: rest =>
    let count := Text.trim first
    match readCount count with
    | none => fault 1 (.xyzAtomCount (String.ofList count))
    | some declared =>
      let comment := rest.headD []
      let atoms ← readAtoms declared 1 3 rest.tail
      if atoms.length = declared then
        return ⟨typedByElement atoms, String.ofList (Text.trimEnd comment), latticeOf? comment⟩
      else fault (atoms.length + 3) (.xyzAtoms declared atoms.length)

/-- The line of an atom. -/
def atomLine (a : Atom Double) : String :=
  let coordinate (x : Double) : String := Text.padLeft 16 (fixedText 8 x)
  " ".intercalate [Text.padRight 3 a.element, coordinate a.position.x, coordinate a.position.y,
    coordinate a.position.z]

/-- Writes a file. -/
def write (atoms : List (Atom Double)) (comment : String) : String :=
  let lines := toString atoms.length :: oneLine comment :: atoms.map atomLine
  String.join (lines.map (· ++ "\n"))

end Honeycomb.Xyz
