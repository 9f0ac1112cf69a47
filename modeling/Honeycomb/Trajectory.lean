import Honeycomb.Collection.Basic

/-!
# Trajectories

* `Trajectory` — frames of the same atoms, and the frame that displacements refer to.
* `Trajectory.setReference` — links every atom of every frame to its counterpart.
-/

set_option autoImplicit false

namespace Honeycomb

/-- Frames in order. -/
structure Trajectory (α : Type) where
  frames : List (Collection α) := []
  reference : Option Nat := none

namespace Trajectory

variable {α : Type}

/-- Puts a frame at the end. -/
def push (t : Trajectory α) (frame : Collection α) : Trajectory α :=
  { t with frames := t.frames ++ [frame] }

/-- The link of an atom to the last atom with its id among `atoms`; empty when there is
none. -/
def linkTo (atoms : List (Atom α)) (id : Nat) : FrameLink α :=
  match atoms.reverse.find? (·.id == id) with
  | some a => ⟨some id, some a.position⟩
  | none => {}

/-- Links every atom to its counterpart in the frame at an index and makes that frame the
reference. An index without a frame is refused. -/
def setReference (t : Trajectory α) (i : Nat) : Edit (Except (Error α) (Trajectory α)) := do
  match t.frames[i]? with
  | none => return .error (.parameter (.referenceFrame i t.frames.length))
  | some frame =>
    let frames ← t.frames.mapM fun f =>
      f.modifyAll fun a => { a with frameLink := some (linkTo frame.atoms a.id) }
    return .ok ⟨frames, some i⟩

end Trajectory

end Honeycomb
