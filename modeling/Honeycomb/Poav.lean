import Honeycomb.Geometry.Vec3

/-!
# Pi-orbital axis vectors

The pi-orbital axis of an atom with three bonds, and the angles it makes with them.

* `Poav.make?` — an axis found elsewhere, with its angles; none for a zero axis or bond.
* `Poav.equalAngles?` — the axis that makes the same angle with all three bonds and points
  away from them; none when a bond is zero or the tips of the unit bonds lie on a line.
* `PoavSlots` — one result for each way of finding the axis.
-/

set_option autoImplicit false

namespace Honeycomb

/-- How a pi-orbital axis was found. -/
inductive PoavKind where
  | poav1
  | poav2
  | poavR
deriving Repr, DecidableEq

/-- The name of the analysis. -/
def PoavKind.label : PoavKind → String
  | poav1 => "POAV1"
  | poav2 => "POAV2"
  | poavR => "POAVR"

/-- The analysis with a name. -/
def PoavKind.ofLabel? (s : String) : Option PoavKind :=
  [poav1, poav2, poavR].find? (·.label == s)

/-- The bonds of an atom with three neighbors. -/
structure Bonds (α : Type) where
  first : Vec3 α
  second : Vec3 α
  third : Vec3 α
deriving Repr, DecidableEq

/-- A pi-orbital axis, of length one, and its angles to the three bonds in radians. -/
structure Poav (α : Type) where
  kind : PoavKind
  axis : Vec3 α
  angles : Vec3 α
deriving Repr, DecidableEq

namespace Poav

variable {α : Type} [Scalar α]

/-- Vectors no longer than this have no direction. -/
def tolerance : α := 1e-12

/-- The angle between two unit vectors. -/
def angleTo (axis bond : Vec3 α) : α :=
  Scalar.acos (Scalar.clamp (-1) 1 (axis.dot bond))

/-- An axis with its angles to the bonds. -/
def make? (kind : PoavKind) (axis : Vec3 α) (bonds : Bonds α) : Option (Poav α) := do
  let axis ← axis.unit? tolerance
  let u ← bonds.first.unit? tolerance
  let v ← bonds.second.unit? tolerance
  let w ← bonds.third.unit? tolerance
  return ⟨kind, axis, ⟨angleTo axis u, angleTo axis v, angleTo axis w⟩⟩

/-- The axis normal to the plane through the tips of the unit bonds, on the side away from
them. -/
def equalAngles? (bonds : Bonds α) : Option (Poav α) := do
  let u ← bonds.first.unit? tolerance
  let v ← bonds.second.unit? tolerance
  let w ← bonds.third.unit? tolerance
  let normal ← ((v - u).cross (w - u)).unit? tolerance
  let outward := if 0 < normal.dot (u + v + w) then -normal else normal
  make? .poav1 outward bonds

/-- The mean of the angles to the bonds. -/
def meanAngle (p : Poav α) : α :=
  (p.angles.x + p.angles.y + p.angles.z) / 3.0

/-- By how much the mean angle exceeds a right angle; zero for a planar atom. -/
def pyramidalization (p : Poav α) : α :=
  p.meanAngle - Scalar.pi / 2.0

end Poav

/-- The results of the three analyses of one atom. -/
structure PoavSlots (α : Type) where
  poav1 : Option (Poav α) := none
  poav2 : Option (Poav α) := none
  poavR : Option (Poav α) := none
deriving Repr, DecidableEq

namespace PoavSlots

variable {α : Type}

/-- The result of one analysis. -/
def get (s : PoavSlots α) : PoavKind → Option (Poav α)
  | .poav1 => s.poav1
  | .poav2 => s.poav2
  | .poavR => s.poavR

/-- Stores a result under its own kind. -/
def put (s : PoavSlots α) (p : Poav α) : PoavSlots α :=
  match p.kind with
  | .poav1 => { s with poav1 := some p }
  | .poav2 => { s with poav2 := some p }
  | .poavR => { s with poavR := some p }

theorem get_put (s : PoavSlots α) (p : Poav α) (kind : PoavKind) :
    (s.put p).get kind = if kind = p.kind then some p else s.get kind := by
  cases h : p.kind <;> cases kind <;> simp [put, get, h]

end PoavSlots

end Honeycomb
