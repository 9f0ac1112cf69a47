/-!
# Double-precision numbers

A number is its bit pattern, so that all of it can be seen: also the sign of what is not a
number, which counts when numbers are sorted.

* `Double` — the pattern; `Double.toFloat` and `Double.ofFloat` lead to the arithmetic of
  floats and back.
* `Double.map`, `Double.map₂` — an operation of floats. An operand that is not a number is the
  result, the first one of two; numbers that have no result give `Double.undefined`.
* The four operations, comparisons and literals.
* `Double.distance` — the root of the sum of the squares of three differences.
* `Double.rank` — the place of a number in the total order.
-/

set_option autoImplicit false

namespace Honeycomb

/-- A double-precision number, by its bit pattern. -/
@[ext]
structure Double where
  bits : UInt64
deriving Repr, Inhabited

namespace Double

/-- The number for arithmetic, where what is not a number has no sign. -/
@[inline]
def toFloat (x : Double) : Float :=
  Float.ofBits x.bits

/-- The number with the bit pattern of a float. -/
@[inline]
def ofFloat (x : Float) : Double :=
  ⟨x.toBits⟩

/-- What is not a number, with a positive sign. -/
@[inline]
def nan : Double :=
  ⟨0x7ff8000000000000⟩

/-- What is not a number because numbers have no result, such as zero divided by zero; its
sign is negative. -/
def undefined : Double :=
  ⟨0xfff8000000000000⟩

/-- The number above all others. -/
@[inline]
def infinity : Double :=
  ⟨0x7ff0000000000000⟩

/-- The number without its sign. -/
@[inline]
def abs (x : Double) : Double :=
  ⟨x.bits &&& 0x7fffffffffffffff⟩

/-- What is not a number: the patterns above the one of infinity, whatever their sign. -/
@[inline]
def isNaN (x : Double) : Bool :=
  infinity.bits < x.abs.bits

/-- A number, and not an infinite one. -/
@[inline]
def isFinite (x : Double) : Bool :=
  x.abs.bits < infinity.bits

/-- An operation with one operand. A float that is not a number has the one pattern `nan`. -/
@[inline]
def map (f : Float → Float) (x : Double) : Double :=
  let r := (f x.toFloat).toBits
  if r = nan.bits then if x.isNaN then x else undefined else ⟨r⟩

/-- An operation with two operands. -/
@[inline]
def map₂ (f : Float → Float → Float) (x y : Double) : Double :=
  let r := (f x.toFloat y.toFloat).toBits
  if r = nan.bits then if x.isNaN then x else if y.isNaN then y else undefined else ⟨r⟩

/-- The number with the other sign. -/
def neg (x : Double) : Double :=
  ⟨x.bits ^^^ 0x8000000000000000⟩

/-- The sign is changed back by changing it again. -/
theorem neg_neg (x : Double) : x.neg.neg = x := by
  apply Double.ext
  change (x.bits ^^^ 0x8000000000000000) ^^^ 0x8000000000000000 = x.bits
  rw [UInt64.xor_assoc, UInt64.xor_self, UInt64.xor_zero]

/-- The number nearest to an integer. -/
def ofInt (n : Int) : Double :=
  ofFloat (Float.ofInt n)

instance : Zero Double := ⟨⟨0⟩⟩
instance : One Double := ⟨⟨0x3ff0000000000000⟩⟩
instance : Add Double := ⟨map₂ Float.add⟩
instance : Sub Double := ⟨map₂ Float.sub⟩
instance : Mul Double := ⟨map₂ Float.mul⟩
instance : Div Double := ⟨map₂ Float.div⟩
instance : Neg Double := ⟨neg⟩
instance : OfScientific Double := ⟨fun m isSmall e => ofFloat (Float.ofScientific m isSmall e)⟩
instance : BEq Double := ⟨fun x y => x.toFloat == y.toFloat⟩
instance : LT Double := ⟨fun x y => x.toFloat < y.toFloat⟩
instance : LE Double := ⟨fun x y => x.toFloat ≤ y.toFloat⟩
@[inline]
instance : DecidableLT Double := fun x y => inferInstanceAs (Decidable (x.toFloat < y.toFloat))
@[inline]
instance : DecidableLE Double := fun x y => inferInstanceAs (Decidable (x.toFloat ≤ y.toFloat))

/-- The root of the sum of the squares of three differences. It stays a float from one step to the
next; the steps are only taken one by one to find which number that is not one comes out. -/
@[inline]
def distance (x y z x' y' z' : Double) : Double :=
  let a := x.toFloat - x'.toFloat
  let b := y.toFloat - y'.toFloat
  let c := z.toFloat - z'.toFloat
  let r := (a * a + b * b + c * c).sqrt.toBits
  if r = nan.bits then
    let a := (x - x').abs
    let b := (y - y').abs
    let c := (z - z').abs
    (a * a + b * b + c * c).map Float.sqrt
  else ⟨r⟩

/-- The place of a number in the total order: negative ones descend in their bit patterns and
stand below all others, so negative zero is just below zero and what is not a number is
outermost on the side of its sign. -/
@[inline]
def rank (x : Double) : UInt64 :=
  if x.bits < 0x8000000000000000 then x.bits + 0x8000000000000000
  else 0xffffffffffffffff - x.bits

end Double

end Honeycomb
