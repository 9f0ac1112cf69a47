import Honeycomb.Error
import Honeycomb.Number.Scalar

/-!
# Chirality

A nanotube is a sheet of graphene rolled up along the vector `n a1 + m a2`.

* `Chirality` — the indices `n` and `m`, not both zero.
* `dR`, `t1`, `t2`, `hexagons`, `symmetryVector`, `screwPitch` — whole numbers that depend on
  the indices alone. The symmetry vector generates all hexagons of a unit cell.
* `circumference`, `axialPeriod`, `psi`, `tau`, `dpsi`, `dtau` — lengths and angles for a
  bond length. A screw by `psi` and `tau` leads from one hexagon to the next; `dpsi` and `dtau`
  lead from the first to the second atom of a hexagon.
* `ChiralType`, `Handedness` — classes of chiralities.
-/

set_option autoImplicit false

namespace Honeycomb

/-- The bond length of graphene. -/
def carbonBond {α : Type} [Scalar α] : α := 1.42

/-- How a tube looks along its circumference. -/
inductive ChiralType where
  | armchair
  | zigzag
  | chiral
deriving Repr, DecidableEq

namespace ChiralType

/-- A tube that is its own mirror image. -/
def isAchiral : ChiralType → Bool
  | chiral => false
  | _ => true

/-- The name of a type. -/
def name : ChiralType → String
  | armchair => "armchair"
  | zigzag => "zigzag"
  | chiral => "chiral"

end ChiralType

/-- Which of two mirror images is meant: right-handed chiralities have `m ≤ n`, left-handed ones
`n ≤ m`. -/
inductive Handedness where
  | right
  | left
deriving Repr, DecidableEq

/-- The indices of a tube. -/
structure Chirality where
  n : Nat
  m : Nat
  nonzero : n ≠ 0 ∨ m ≠ 0
deriving Repr, DecidableEq

namespace Chirality

/-- The chirality with given indices, unless both are zero. -/
def ofIndices? (n m : Nat) : Option Chirality :=
  if h : n ≠ 0 ∨ m ≠ 0 then some ⟨n, m, h⟩ else none

/-- The chirality with given indices; two zeros are refused. -/
def ofIndices {α : Type} (n m : Nat) : Except (Error α) Chirality :=
  match ofIndices? n m with
  | some c => .ok c
  | none => .error (.parameter .indicesZero)

/-- The indices exchanged: the mirror image. -/
def mirror (c : Chirality) : Chirality :=
  ⟨c.m, c.n, c.nonzero.symm⟩

/-- The type of a tube. -/
def chiralType (c : Chirality) : ChiralType :=
  if c.n = c.m then .armchair else if c.n = 0 ∨ c.m = 0 then .zigzag else .chiral

/-- The indices in parentheses. -/
def text (c : Chirality) : String :=
  "(" ++ toString c.n ++ "," ++ toString c.m ++ ")"

/-! ## Whole numbers -/

/-- The greatest common divisor of `2n + m` and `2m + n`. -/
def dR (c : Chirality) : Int :=
  Int.gcd (2 * c.n + c.m) (2 * c.m + c.n)

/-- The first component of the axial lattice vector. -/
def t1 (c : Chirality) : Int :=
  (2 * c.m + c.n) / c.dR

/-- The second component of the axial lattice vector. -/
def t2 (c : Chirality) : Int :=
  -(2 * c.n + c.m) / c.dR

/-- The number of hexagons in a unit cell. -/
def hexagons (c : Chirality) : Int :=
  2 * (c.n * c.n + c.m * c.m + c.n * c.m) / c.dR

/-- The number of atoms in a unit cell: two for each hexagon. -/
def atomCount (c : Chirality) : Nat :=
  2 * c.hexagons.toNat

/-- The solution `q` of `t1 q - t2 p = 1` for a given `p`, of magnitude at most `bound`. -/
def partner? (t1 t2 bound : Int) (p : Nat) : Option Int :=
  let r := 1 + t2 * p
  let q := r / t1
  if t1 * q = r ∧ -bound ≤ q ∧ q ≤ bound then some q else none

/-- The first solution of `t1 q - t2 p = 1` among `p`, `p + 1`, …, at most `count` of them. -/
def firstSolution (t1 t2 bound : Int) (p : Nat) : Nat → Option (Int × Int)
  | 0 => none
  | count + 1 =>
    match partner? t1 t2 bound p with
    | some q => some (p, q)
    | none => firstSolution t1 t2 bound (p + 1) count

/-- The symmetry vector `(p, q)`: the solution of `t1 q - t2 p = 1` with the least `p` from zero
on. -/
def symmetryVector (c : Chirality) : Int × Int :=
  (firstSolution c.t1 c.t2 c.hexagons 0 (c.hexagons.toNat + 1)).getD (0, 0)

/-- How many axial periods a full turn of the screw makes: `m p - n q`. -/
def screwPitch (c : Chirality) : Int :=
  let (p, q) := c.symmetryVector
  c.m * p - c.n * q

/-! ## Lengths and angles -/

section

variable {α : Type} [Scalar α]

/-- The angle of an armchair tube, a sixth of pi. -/
def armchairAngle : α :=
  Scalar.atan (1 / Scalar.sqrt3)

/-- The angle between the circumference and `a1`, from zero for `(n, 0)` to a sixth of pi for
`(n, n)`. -/
def chiralAngle (c : Chirality) : α :=
  let n : α := Scalar.ofNat c.n
  let m : α := Scalar.ofNat c.m
  Scalar.atan (Scalar.sqrt3 * m / (2.0 * n + m))

/-- The length of `n a1 + m a2`. -/
def circumference (c : Chirality) (bond : α) : α :=
  let n : α := Scalar.ofNat c.n
  let m : α := Scalar.ofNat c.m
  Scalar.sqrt3 * bond * Scalar.sqrt (n * n + m * m + n * m)

/-- The diameter of the tube. -/
def diameter (c : Chirality) (bond : α) : α :=
  c.circumference bond / Scalar.pi

/-- The radius of the tube. -/
def radius (c : Chirality) (bond : α) : α :=
  c.circumference bond / (2.0 * Scalar.pi)

/-- The length of a unit cell along the tube. -/
def axialPeriod (c : Chirality) (bond : α) : α :=
  Scalar.sqrt3 * c.circumference bond / Scalar.ofInt c.dR

/-- The turn of the screw from one hexagon to the next. -/
def psi (c : Chirality) : α :=
  2.0 * Scalar.pi / Scalar.ofInt c.hexagons

/-- The rise of the screw from one hexagon to the next. -/
def tau (c : Chirality) (bond : α) : α :=
  Scalar.ofInt c.screwPitch * c.axialPeriod bond / Scalar.ofInt c.hexagons

/-- The turn from the first to the second atom of a hexagon. -/
def dpsi (c : Chirality) (bond : α) : α :=
  bond * Scalar.cos (armchairAngle - c.chiralAngle) / c.radius bond

/-- The fall from the first to the second atom of a hexagon. -/
def dtau (c : Chirality) (bond : α) : α :=
  bond * Scalar.sin (armchairAngle - c.chiralAngle)

end

end Chirality

end Honeycomb
