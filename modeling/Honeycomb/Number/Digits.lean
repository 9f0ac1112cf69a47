import Honeycomb.Number.Binary64

/-!
# Decimal text of doubles

Ways to write a double, all computed from its exact value.

* `fixedText places x` — a fixed number of decimals, correctly rounded, a tie going to the
  even digit; negative zero keeps its sign.
* `scientificText places x` — one digit before the point and a bare exponent.
* `shortest tie x` — the fewest significant digits that read back as the same double and, of
  those, the nearest; `tie` settles two equally near ones.
* `plainText x` — the shortest digits written out in full, never with an exponent.
* `pointedText style x` — the shortest digits with a decimal point always, and with an exponent
  when the number is very large or very small; a `PointStyle` settles what formats differ in.
-/

set_option autoImplicit false

namespace Honeycomb

/-- The decimal digits of a natural number. -/
def natDigits (n : Nat) : List Char :=
  Nat.toDigits 10 n

/-- The sign in front of a number. -/
def signText (negative : Bool) : String :=
  if negative then "-" else ""

/-- What is written for an infinity. -/
def infinityText (negative : Bool) : String :=
  signText negative ++ "inf"

/-- The digits of `n` with a point before the last `places` of them, padded with zeros so that
a digit stands before the point. -/
def pointed (places n : Nat) : List Char :=
  let digits := natDigits n
  let padded := List.replicate (places + 1 - digits.length) '0' ++ digits
  let whole := padded.take (padded.length - places)
  let decimals := padded.drop (padded.length - places)
  if decimals.isEmpty then whole else whole ++ '.' :: decimals

/-- The whole number nearest to `significand * 2 ^ exponent * 10 ^ places`. -/
def scaledRound (significand : Nat) (exponent places : Int) : Nat :=
  roundDiv (significand * Nat.pow 2 exponent.toNat * Nat.pow 10 places.toNat)
    (Nat.pow 2 (-exponent).toNat * Nat.pow 10 (-places).toNat)

/-- A double with a fixed number of decimals. -/
def fixedText (places : Nat) (x : Double) : String :=
  match Binary64.ofDouble x with
  | .nan => "NaN"
  | .infinite negative => infinityText negative
  | .finite negative m q =>
    signText negative ++ String.ofList (pointed places (scaledRound m q places))

/-- The exponent of the leading decimal digit of the positive rational `num / den`. -/
def decimalExponent (num den : Nat) : Int :=
  if den ≤ num then ((natDigits (num / den)).length : Int) - 1
  else -((natDigits ((den - 1) / num)).length : Int)

/-- A double with one digit before the point and a power of ten. -/
def scientificText (places : Nat) (x : Double) : String :=
  match Binary64.ofDouble x with
  | .nan => "NaN"
  | .infinite negative => infinityText negative
  | .finite negative m q =>
    if m = 0 then signText negative ++ String.ofList (pointed places 0) ++ "e0"
    else
      let e := decimalExponent (m * Nat.pow 2 q.toNat) (Nat.pow 2 (-q).toNat)
      let n := scaledRound m q (places - e)
      let (n, e) := if n < Nat.pow 10 (places + 1) then (n, e) else (n / 10, e + 1)
      signText negative ++ String.ofList (pointed places n) ++ "e" ++ toString e

/-- Decimal digits with their place: `digits * 10 ^ exponent`. -/
structure Digits where
  digits : Nat
  exponent : Int
deriving Repr, DecidableEq

/-- Which of two equally near decimals is taken. -/
inductive TieRule where
  | upward
  | even
deriving Repr, DecidableEq

namespace Digits

/-- Drops the zeros at the end of the digits. -/
def trim (d : Digits) : Digits :=
  if d.digits ≠ 0 ∧ d.digits % 10 = 0 then trim ⟨d.digits / 10, d.exponent + 1⟩ else d
termination_by d.digits
decreasing_by omega

/-- The decimal with the given exponent that reads back as `m * 2 ^ q` and is nearest to it,
if there is one. Lengths are counted in quarters of the last binary place, so that the ends
of the interval of reals that round to the double are whole; the ends belong to it when the
significand is even. -/
def onGrid (tie : TieRule) (m : Nat) (q : Int) (exponent : Int) : Option Digits :=
  let quarter := Nat.pow 2 (q - 2).toNat * Nat.pow 10 (-exponent).toNat
  let step := Nat.pow 10 exponent.toNat * Nat.pow 2 (2 - q).toNat
  let value := 4 * m * quarter
  let reach := 2 * quarter
  let reachDown := if m = Nat.pow 2 52 ∧ -1074 < q then quarter else reach
  let inside (gap reach : Nat) : Bool := if m % 2 = 0 then gap ≤ reach else gap < reach
  let low := value / step
  let below := value - low * step
  let above := (low + 1) * step - value
  match inside below reachDown, inside above reach with
  | false, false => none
  | true, false => some ⟨low, exponent⟩
  | false, true => some ⟨low + 1, exponent⟩
  | true, true =>
    if below < above then some ⟨low, exponent⟩
    else if above < below then some ⟨low + 1, exponent⟩
    else
      match tie with
      | .upward => some ⟨low + 1, exponent⟩
      | .even => if low % 2 = 0 then some ⟨low, exponent⟩ else some ⟨low + 1, exponent⟩

/-- The shortest decimal that reads back as `m * 2 ^ q`, for positive `m`: the first hit among
the grids of one, two, … seventeen significant digits. -/
def shortest (tie : TieRule) (m : Nat) (q : Int) : Digits :=
  let top := decimalExponent (m * Nat.pow 2 q.toNat) (Nat.pow 2 (-q).toNat)
  match (List.range 17).findSome? fun (k : Nat) => onGrid tie m q (top - (k : Int)) with
  | some d => d.trim
  | none => ⟨m * Nat.pow 2 q.toNat, 0⟩

/-- The digits written out in full, without an exponent. -/
def plain (d : Digits) : List Char :=
  if 0 ≤ d.exponent then natDigits d.digits ++ List.replicate d.exponent.toNat '0'
  else pointed (-d.exponent).toNat d.digits

end Digits

/-- What formats that always write a point differ in. -/
structure PointStyle where
  tie : TieRule
  /-- A power of ten above one has a plus sign. -/
  hasPlus : Bool
deriving Repr, DecidableEq

namespace Digits

/-- The digits with a fraction always. Numbers from `10 ^ 16` on and below `10 ^ -5` have an
exponent, and then a point only between two digits. -/
def withPoint (style : PointStyle) (d : Digits) : List Char :=
  let ds := natDigits d.digits
  let lead : Int := ds.length - 1 + d.exponent
  if 16 ≤ lead ∨ lead < -5 then
    let body :=
      match ds with
      | [] => []
      | [c] => [c]
      | c :: rest => c :: '.' :: rest
    let plus := if style.hasPlus && 0 < lead then ['+'] else []
    body ++ 'e' :: plus ++ (toString lead).toList
  else if 0 ≤ d.exponent then plain d ++ ['.', '0']
  else plain d

end Digits

/-- A double in the fewest digits that read back, written out in full. -/
def plainText (x : Double) : String :=
  match Binary64.ofDouble x with
  | .nan => "NaN"
  | .infinite negative => infinityText negative
  | .finite negative m q =>
    if m = 0 then signText negative ++ "0"
    else signText negative ++ String.ofList (Digits.shortest .upward m q).plain

/-- A double in the fewest digits that read back, with a decimal point always. -/
def pointedText (style : PointStyle) (x : Double) : String :=
  match Binary64.ofDouble x with
  | .nan => "NaN"
  | .infinite negative => infinityText negative
  | .finite negative m q =>
    if m = 0 then signText negative ++ "0.0"
    else signText negative ++ String.ofList ((Digits.shortest style.tie m q).withPoint style)

end Honeycomb
