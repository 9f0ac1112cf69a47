import Honeycomb.Number.Double

/-!
# Binary64 values as exact rationals

Number text and remainders are computed exactly, so a floating-point number is first taken
apart into sign, significand and exponent.

* `Binary64` — a number read off its bits: not a number, an infinity, or `± m · 2 ^ q`.
* `roundDiv` — the quotient of two naturals rounded to nearest, a tie going to the even one.
* `Binary64.nearest` — the double nearest to a positive rational, a tie going to the even
  significand; `Binary64.nearestDecimal` does this for `m · 10 ^ e`.
-/

set_option autoImplicit false

namespace Honeycomb

/-- A binary64 number taken apart. A finite one has the magnitude
`significand * 2 ^ exponent`. -/
inductive Binary64 where
  | nan
  | infinite (negative : Bool)
  | finite (negative : Bool) (significand : Nat) (exponent : Int)
deriving Repr, DecidableEq

/-- The quotient `num / den` rounded to the nearest natural; a tie goes to the even one. -/
def roundDiv (num den : Nat) : Nat :=
  let q := num / den
  let r := num % den
  if 2 * r < den then q
  else if den < 2 * r then q + 1
  else if q % 2 = 0 then q else q + 1

/-- The result is one of the two naturals around the quotient. -/
theorem roundDiv_eq (num den : Nat) :
    roundDiv num den = num / den ∨ roundDiv num den = num / den + 1 := by
  unfold roundDiv
  dsimp only
  split
  · exact Or.inl rfl
  · split
    · exact Or.inr rfl
    · split
      · exact Or.inl rfl
      · exact Or.inr rfl

/-- A quotient that is a whole number is kept. -/
theorem roundDiv_of_dvd {num den : Nat} (hden : 0 < den) (h : den ∣ num) :
    roundDiv num den = num / den := by
  unfold roundDiv
  have hr : num % den = 0 := Nat.mod_eq_zero_of_dvd h
  simp [hr, hden]

namespace Binary64

/-- The fields of the bit pattern: sign, eleven exponent bits, fifty-two fraction bits. -/
def ofBits (bits : Nat) : Binary64 :=
  let negative := decide (Nat.pow 2 63 ≤ bits)
  let field : Nat := bits / Nat.pow 2 52 % Nat.pow 2 11
  let fraction : Nat := bits % Nat.pow 2 52
  if field = 2047 then
    if fraction = 0 then .infinite negative else .nan
  else if field = 0 then .finite negative fraction (-1074)
  else .finite negative (Nat.pow 2 52 + fraction) ((field : Int) - 1075)

/-- The exact value of a number. -/
def ofDouble (x : Double) : Binary64 :=
  ofBits x.bits.toNat

/-- The bit pattern of the double nearest to `num / den`, for positive `num` and `den`.
The exponent is chosen so that the rounded significand has fifty-three bits, or is the least
one for subnormal numbers; a significand that rounds up to `2 ^ 53` carries into the exponent
field, and what reaches the top exponent is infinity. -/
def nearestBits (num den : Nat) : Nat :=
  let guess : Int := (Nat.log2 num : Int) - (Nat.log2 den : Int) - 53
  let fits := num * Nat.pow 2 (-guess).toNat < den * Nat.pow 2 guess.toNat * Nat.pow 2 53
  let e : Int := max (-1074) (if fits then guess else guess + 1)
  let q := roundDiv (num * Nat.pow 2 (-e).toNat) (den * Nat.pow 2 e.toNat)
  let bits := if q < Nat.pow 2 52 then q else (e + 1074).toNat * Nat.pow 2 52 + q
  min bits (2047 * Nat.pow 2 52)

/-- The double nearest to `num / den`; zero for `num = 0`. -/
def nearest (negative : Bool) (num den : Nat) : Double :=
  let bits := if num = 0 then 0 else nearestBits num den
  ⟨UInt64.ofNat (if negative then Nat.pow 2 63 + bits else bits)⟩

/-- The double nearest to `± mantissa * 10 ^ exponent`. A value outside `10 ^ -400 … 10 ^ 400`
is settled by its size alone. -/
def nearestDecimal (negative : Bool) (mantissa : Nat) (exponent : Int) : Double :=
  let size : Int := (Nat.log2 mantissa : Int) / 4 + exponent
  let least : Int := (Nat.log2 mantissa : Int) / 3 + 1 + exponent
  if mantissa = 0 then nearest negative 0 1
  else if 400 < size then nearest negative (Nat.pow 2 1100) 1
  else if least < -400 then nearest negative 0 1
  else nearest negative (mantissa * Nat.pow 10 exponent.toNat) (Nat.pow 10 (-exponent).toNat)

/-- The double `± significand * 2 ^ exponent`, when it is one; the nearest one otherwise. -/
def ofDyadic (negative : Bool) (significand : Nat) (exponent : Int) : Double :=
  nearest negative (significand * Nat.pow 2 exponent.toNat) (Nat.pow 2 (-exponent).toNat)

/-- The remainder of `a` by `b` with the sign of `a`, which is always exactly representable.
There is none by zero and none of an infinity. -/
def remainder (a b : Double) : Double :=
  match ofDouble a, ofDouble b with
  | .nan, _ => a
  | _, .nan => b
  | .infinite _, _ => .undefined
  | .finite _ _ _, .infinite _ => a
  | .finite s m p, .finite _ n q =>
    if n = 0 then .undefined
    else
      let e := min p q
      ofDyadic s ((m * Nat.pow 2 (p - e).toNat) % (n * Nat.pow 2 (q - e).toNat)) e

end Binary64

end Honeycomb
