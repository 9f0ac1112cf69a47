import Honeycomb.Collection.Basic

/-!
# Ids, types and the type table

* `firstAppearance` — numbers labels 1, 2, … in the order in which they first appear.
* `Collection.assignIds`, `Collection.assignTypes` — new ids and types for all atoms.
* `Collection.rebuildTypeTable` — mass and charge of the first atom of each element.
-/

set_option autoImplicit false

namespace Honeycomb

/-- Numbers the labels after those already `seen`: a label that was seen keeps its number, a
new one gets the next. -/
def numberAfter (seen : List String) : List String → List Nat
  | [] => []
  | label :: rest =>
    match seen.findIdx? (· == label) with
    | some k => (k + 1) :: numberAfter seen rest
    | none => (seen.length + 1) :: numberAfter (seen ++ [label]) rest

/-- Numbers labels from one on by first appearance. -/
def firstAppearance (labels : List String) : List Nat :=
  numberAfter [] labels

/-- Each label gets a number. -/
theorem length_numberAfter (seen labels : List String) :
    (numberAfter seen labels).length = labels.length := by
  induction labels generalizing seen with
  | nil => rfl
  | cons label rest ih =>
      simp only [numberAfter]
      split <;> simp [ih]

/-- The atoms with types by first appearance of their elements. -/
def typedByElement {α : Type} (atoms : List (Atom α)) : List (Atom α) :=
  atoms.zipWith (fun a t => { a with type := t }) (firstAppearance (atoms.map (·.element)))

/-- Mass and charge of the first atom of each element. -/
def TypeTable.ofAtoms {α : Type} (atoms : List (Atom α)) : TypeTable α :=
  atoms.foldl (fun table a => table.insertIfNew a.element ⟨a.mass, a.charge⟩) ∅

namespace Collection

variable {α : Type}

/-- Gives the atoms the ids `start`, `start + 1`, … in order. References to the old ids are
dropped. -/
def assignIds (c : Collection α) (start : Nat) : Collection α :=
  { c with
    atoms := c.atoms.mapIdx fun i a => { a.forgetNeighbors with id := start + i }
    typeTable := none }

/-- Gives the atoms types by first appearance of their elements. -/
def assignTypes (c : Collection α) : Collection α :=
  { c with atoms := typedByElement c.atoms, typeTable := none }

/-- Makes the type table from the current atoms. -/
def rebuildTypeTable (c : Collection α) : Collection α :=
  { c with typeTable := some (.ofAtoms c.atoms) }

/-- The number of different elements. -/
def elementCount (c : Collection α) : Nat :=
  c.elements.eraseDups.length

/-- The elements in alphabetical order, each with the number of its atoms if there are
several. -/
def formula (c : Collection α) : String :=
  let counts : Std.TreeMap String Nat :=
    c.elements.foldl (fun t e => t.insert e (t.getD e 0 + 1)) ∅
  String.join <| counts.toList.map fun (e, n) => if 1 < n then e ++ toString n else e

end Collection

end Honeycomb
