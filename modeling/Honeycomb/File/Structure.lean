import Honeycomb.Atom.Basic
import Honeycomb.Crystal.Lattice

/-!
# Structure files

* `StructureFile` — what a structure file says: atoms, a comment, and the cell if it has one.
* `oneLine` — a comment that fits into a line.
-/

set_option autoImplicit false

namespace Honeycomb

/-- The contents of a structure file. -/
structure StructureFile where
  atoms : List (Atom Double)
  comment : String
  lattice : Option (Lattice Double)

/-- A comment with each line feed turned into a blank. -/
def oneLine (comment : String) : String :=
  comment.map fun c => if c = '\n' then ' ' else c

theorem feed_notMem_oneLine {comment : String} : '\n' ∉ (oneLine comment).toList := by
  rw [oneLine, String.toList_map, List.mem_map]
  rintro ⟨c, -, hc⟩
  split at hc
  · cases hc
  · contradiction

end Honeycomb
