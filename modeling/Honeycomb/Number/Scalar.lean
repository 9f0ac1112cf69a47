import Honeycomb.Number.Binary64

/-!
# Scalars

The arithmetic in which coordinates, lengths and angles are written. Geometry is written once
over a `Scalar`; it runs on `Double`, and statements of exact arithmetic read the same
definitions over a field that has these operations.

* `Scalar` — the four operations, roots, distances and circular functions, comparisons as the
  numbers define them (what is not a number compares with nothing), and a total order
  `before` for sorting.
* `Scalar.greater`, `Scalar.clamp`, degrees and radians, sums.
* The instance on `Double`; its total order is the one of the bit patterns.
-/

set_option autoImplicit false

namespace Honeycomb

/-- A type of numbers to do geometry with. -/
class Scalar (α : Type) extends Zero α, One α, Add α, Sub α, Mul α, Div α, Neg α,
    OfScientific α, BEq α, LT α, LE α where
  /-- The first number is below the second. -/
  isLess : α → α → Bool
  isLess_iff : ∀ a b, isLess a b = true ↔ a < b
  /-- The first number is not above the second. -/
  isAtMost : α → α → Bool
  isAtMost_iff : ∀ a b, isAtMost a b = true ↔ a ≤ b
  /-- The number nearest to an integer. -/
  ofInt : Int → α
  pi : α
  abs : α → α
  sqrt : α → α
  /-- The distance of two places, each by its three components: the root of the sum of the squares
  of their differences. -/
  distance : α → α → α → α → α → α → α
  sin : α → α
  cos : α → α
  atan : α → α
  acos : α → α
  pow : α → α → α
  /-- The remainder by the second number that lies between zero and its magnitude. -/
  modulo : α → α → α
  ceil : α → α
  /-- The whole part as a count below `2 ^ 32`: anything negative or undefined counts zero,
  anything too large counts the greatest such number. -/
  toCount : α → Nat
  isFinite : α → Bool
  /-- The order used for sorting, in which any two numbers are comparable. -/
  before : α → α → Bool
  before_total : ∀ a b, (before a b || before b a) = true
  before_trans : ∀ a b c, before a b = true → before b c = true → before a c = true

namespace Scalar

variable {α : Type} [Scalar α]

attribute [simp] isLess_iff isAtMost_iff

@[inline]
instance : DecidableLT α := fun a b => decidable_of_iff _ (isLess_iff a b)

@[inline]
instance : DecidableLE α := fun a b => decidable_of_iff _ (isAtMost_iff a b)

/-- A count as a number. -/
def ofNat (n : Nat) : α :=
  ofInt n

/-- The greater of two numbers; one that is not a number gives way to the other. -/
def greater (a b : α) : α :=
  if b ≤ a then a else if b == b then b else a

/-- The number of the interval from `lo` to `hi` nearest to `a`. -/
def clamp (lo hi a : α) : α :=
  if a < lo then lo else if hi < a then hi else a

/-- An angle in degrees, in radians. -/
def radians (degrees : α) : α :=
  degrees * (pi / 180.0)

/-- An angle in radians, in degrees. -/
def degrees (radians : α) : α :=
  radians * (180.0 / pi)

/-- The square root of three, the ratio of the two periods of the honeycomb. -/
def sqrt3 : α :=
  sqrt 3.0

/-- The sum of a list, from the left. -/
def sum (xs : List α) : α :=
  xs.foldl (· + ·) 0

end Scalar

instance : Scalar Double where
  isLess a b := a.toFloat.lt b.toFloat
  isLess_iff _ _ := Iff.rfl
  isAtMost a b := a.toFloat.le b.toFloat
  isAtMost_iff _ _ := Iff.rfl
  ofInt := Double.ofInt
  pi := 3.141592653589793
  abs := Double.abs
  sqrt := Double.map Float.sqrt
  distance := Double.distance
  sin := Double.map Float.sin
  cos := Double.map Float.cos
  atan := Double.map Float.atan
  acos := Double.map Float.acos
  pow := Double.map₂ Float.pow
  modulo a b :=
    let r := Binary64.remainder a b
    if r < 0.0 then r + b.abs else r
  ceil := Double.map Float.ceil
  toCount x := x.toFloat.toUInt32.toNat
  isFinite := Double.isFinite
  before a b := decide (a.rank ≤ b.rank)
  before_total a b := by
    have := UInt64.le_total a.rank b.rank
    simpa using this
  before_trans a b c hab hbc := by
    simp only [decide_eq_true_eq] at hab hbc ⊢
    exact UInt64.le_trans hab hbc

end Honeycomb
