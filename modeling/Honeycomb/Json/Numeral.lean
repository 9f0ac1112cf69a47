import Honeycomb.Number.Reading

/-!
# Numbers in JSON text

* `Numeral` — a number as it is written, and `Numeral.read`, which takes it apart.
* `Numeral.count?` — the natural number of 64 bits that it is.
* `Numeral.float?` — its value as a double. The digits are gathered in 64 bits and scaled by
  powers of ten in floating point, so the last bits of a long number can be off; a number that
  is too large has no value.
-/

set_option autoImplicit false

namespace Honeycomb.Json

/-- A number as it is written: digits, decimals behind a point, and a power of ten. -/
structure Numeral where
  negative : Bool
  whole : List Char
  decimals : List Char
  exponent : Option Int
deriving Repr, DecidableEq

namespace Numeral

/-- The decimals in front of a text, and what follows them; a point needs one at least. -/
def readDecimals : List Char → Option (List Char × List Char)
  | '.' :: rest =>
    let decimals := rest.takeWhile Char.isDigit
    if decimals.isEmpty then none else some (decimals, rest.dropWhile Char.isDigit)
  | cs => some ([], cs)

/-- The power of ten that a text is; no text is none. -/
def readPower : List Char → Option (Option Int)
  | [] => some none
  | c :: rest => if c = 'e' ∨ c = 'E' then (readSigned rest).map some else none

/-- Reads a number. Only zero itself starts with the digit zero. -/
def read (cs : List Char) : Option Numeral := do
  let (negative, body) :=
    match cs with
    | '-' :: rest => (true, rest)
    | _ => (false, cs)
  let whole := body.takeWhile Char.isDigit
  if whole.isEmpty || (whole.head? == some '0' && 1 < whole.length) then none
  let (decimals, rest) ← readDecimals (body.dropWhile Char.isDigit)
  let exponent ← readPower rest
  return ⟨negative, whole, decimals, exponent⟩

/-- The natural number below `2 ^ 64` that is written without sign, point and power of ten. -/
def count? (n : Numeral) : Option Nat :=
  if n.negative || !n.decimals.isEmpty || n.exponent.isSome then none
  else (readDigits n.whole).filter (· < Nat.pow 2 64)

/-- Appends digits to a number as long as it stays below `2 ^ 64`, and counts them. -/
def gather (significand : Nat) : List Char → Nat × Nat
  | [] => (significand, 0)
  | c :: cs =>
    let next := 10 * significand + (c.toNat - '0'.toNat)
    if next < Nat.pow 2 64 then
      let (total, used) := gather next cs
      (total, used + 1)
    else (significand, 0)

/-- No more digits are counted than there are. -/
theorem gather_le (significand : Nat) (cs : List Char) :
    (gather significand cs).2 ≤ cs.length := by
  induction cs generalizing significand with
  | nil => exact Nat.le_refl _
  | cons c cs ih =>
    simp only [gather]
    split
    · exact Nat.succ_le_succ (ih _)
    · exact Nat.zero_le _

/-- The double nearest to a power of ten. -/
def powerOfTen (k : Nat) : Double :=
  Binary64.nearestDecimal false 1 k

/-- Divides by a power of ten, by at most the `308`th in one step. -/
def divideByPower (x : Double) (k : Nat) : Double :=
  if k ≤ 308 then x / powerOfTen k
  else if x == 0 then x
  else divideByPower (x / powerOfTen 308) (k - 308)
termination_by k

/-- Multiplies by a power of ten; a result that is not finite is none. -/
def multiplyByPower? (x : Double) (k : Nat) : Option Double :=
  if k ≤ 308 then
    let y := x * powerOfTen k
    if y.isFinite then some y else none
  else if x == 0 then some x
  else none

/-- The value of a number. -/
def float? (n : Numeral) : Option Double :=
  let (head, wholeUsed) := gather 0 n.whole
  let (significand, decimalsUsed) := gather head n.decimals
  let scale : Int :=
    n.exponent.getD 0 + (n.whole.length - wholeUsed : Nat) - (decimalsUsed : Nat)
  let magnitude := Binary64.nearestDecimal false significand 0
  let scaled :=
    if 0 ≤ scale then multiplyByPower? magnitude scale.toNat
    else some (divideByPower magnitude (-scale).toNat)
  scaled.map fun x => if n.negative then -x else x

end Numeral

end Honeycomb.Json
