import Honeycomb.Number.Binary64

/-!
# Reading numbers

* `readNatBelow limit` — a natural number: digits, with a plus sign allowed in front.
* `readSigned` — an integer: an optional sign and digits.
* `readDouble` — a double: an optional sign, then `inf`, `infinity` or `nan` in any case, or
  digits with an optional point among or around them and an optional power of ten. The value
  is the nearest double.
-/

set_option autoImplicit false

namespace Honeycomb

/-- The value of a run of decimal digits. -/
def digitsValue (digits : List Char) : Nat :=
  digits.foldl (fun n c => 10 * n + (c.toNat - '0'.toNat)) 0

/-- The value of a text that is one or more digits. -/
def readDigits (cs : List Char) : Option Nat :=
  if cs.isEmpty || !cs.all Char.isDigit then none else some (digitsValue cs)

/-- A natural number below `limit`. -/
def readNatBelow (limit : Nat) (cs : List Char) : Option Nat :=
  let digits :=
    match cs with
    | '+' :: rest => rest
    | _ => cs
  (readDigits digits).filter (· < limit)

/-- A count, an id or a type: a natural number of 64 bits. -/
def readCount (cs : List Char) : Option Nat :=
  readNatBelow (Nat.pow 2 64) cs

/-- A natural number of 32 bits. -/
def readIndex (cs : List Char) : Option Nat :=
  readNatBelow (Nat.pow 2 32) cs

/-- An optional sign in front of a text, as "is negative". -/
def readSign : List Char → Bool × List Char
  | '-' :: rest => (true, rest)
  | '+' :: rest => (false, rest)
  | cs => (false, cs)

/-- An integer of any size. -/
def readSigned (cs : List Char) : Option Int :=
  let (negative, digits) := readSign cs
  (readDigits digits).map fun n => if negative then -(n : Int) else n

/-- The power of ten behind the digits of a number; none is the zeroth. -/
def readExponent : List Char → Option Int
  | [] => some 0
  | c :: rest => if c = 'e' ∨ c = 'E' then readSigned rest else none

/-- A number without its sign: digits before the point, digits behind it, at least one digit
in all, and a power of ten. -/
def readMagnitude (negative : Bool) (cs : List Char) : Option Double :=
  let whole := cs.takeWhile Char.isDigit
  let rest := cs.dropWhile Char.isDigit
  let (decimals, rest) :=
    match rest with
    | '.' :: r => (r.takeWhile Char.isDigit, r.dropWhile Char.isDigit)
    | _ => ([], rest)
  if whole.isEmpty && decimals.isEmpty then none
  else
    (readExponent rest).map fun e =>
      Binary64.nearestDecimal negative (digitsValue (whole ++ decimals)) (e - decimals.length)

/-- A double; what is not a number keeps its sign. -/
def readDouble (cs : List Char) : Option Double :=
  let (negative, body) := readSign cs
  let withSign (x : Double) : Double := if negative then -x else x
  let word := body.map Char.toLower
  if word = "inf".toList ∨ word = "infinity".toList then
    some (withSign .infinity)
  else if word = "nan".toList then some (withSign .nan)
  else readMagnitude negative body

end Honeycomb
