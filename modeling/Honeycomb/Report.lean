import Honeycomb.Collection.Numbering
import Honeycomb.Number.Digits
import Honeycomb.Text.Words

/-!
# Reports

Texts about a collection for the reader.

* `Report.summary` — the formula and a table of the first atoms.
* `Report.coordination` — how many atoms have each coordination number.
* `Report.measurement` — the distance of two atoms, or the angle at the second of three.
-/

set_option autoImplicit false

namespace Honeycomb.Report

/-- The number of atoms in a table. -/
def previewLength : Nat := 20

/-- A line across a table. -/
def rule : String :=
  String.ofList (List.replicate 62 '-')

/-- The cells of a row, each filled up to the width of its column. -/
def tableRow (cells : List String) : String :=
  " ".intercalate (cells.zipWith (fun cell width => Text.padRight width cell)
    [8, 8, 6, 6, 10, 10, 10])

/-- The row of an atom. -/
def atomRow (a : Atom Double) : String :=
  tableRow [toString a.id, a.element, toString a.type, toString a.molecule,
    fixedText 4 a.position.x, fixedText 4 a.position.y, fixedText 4 a.position.z]

/-- The formula of a collection and a table of its first atoms. -/
def summary (c : Collection Double) (title : String) : String :=
  let head :=
    ["Structure: " ++ title, "Formula: " ++ c.formula ++ " (" ++ toString c.size ++ " atoms)",
      rule, tableRow ["Id", "Element", "Type", "Mol", "X", "Y", "Z"], rule]
  let rows := (c.atoms.take previewLength).map atomRow
  let tail :=
    if previewLength < c.size then
      ["... and " ++ toString (c.size - previewLength) ++ " more atoms."]
    else []
  String.join ((head ++ rows ++ tail).map (· ++ "\n"))

/-- How many atoms have each coordination number. -/
def coordination (numbers : List Nat) : String :=
  let counts : Std.TreeMap Nat Nat :=
    numbers.foldl (fun t n => t.insert n (t.getD n 0 + 1)) ∅
  let rows := counts.toList.map fun (n, count) =>
    "  CN " ++ toString n ++ ": " ++ toString count ++ " atoms"
  let rows := if rows.isEmpty then ["  (no atoms)"] else rows
  String.join (("Coordination numbers:" :: rows).map (· ++ "\n"))

/-- The atoms with given ids; the first id without an atom is reported. -/
def findAll (c : Collection Double) : List Nat → Except Nat (List (Atom Double))
  | [] => .ok []
  | id :: ids =>
    match c.find? id with
    | none => .error id
    | some a => (findAll c ids).map (a :: ·)

/-- The distance of two atoms, or the angle and the distances of three. -/
def measurement (c : Collection Double) (ids : List Nat) : String :=
  match findAll c ids with
  | .error id => "No atom with id " ++ toString id ++ "."
  | .ok atoms =>
    let labels := atoms.map fun a => "#" ++ toString a.id ++ " " ++ a.element
    let lines :=
      match atoms.map (·.position) with
      | [p, q] => ["Distance: " ++ fixedText 5 (p.dist q) ++ " A"]
      | [p, q, r] =>
        ["Angle (A-B-C): " ++ fixedText 2 (Vec3.corner p q r) ++ " deg",
          "Dist (A-B):    " ++ fixedText 4 (p.dist q) ++ " A",
          "Dist (B-C):    " ++ fixedText 4 (q.dist r) ++ " A"]
      | _ => ["Give 2 or 3 atom ids to measure."]
    "\n".intercalate (("Atoms: " ++ " - ".intercalate labels) :: lines)

end Honeycomb.Report
