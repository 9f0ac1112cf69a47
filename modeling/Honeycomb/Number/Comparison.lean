import Honeycomb.Number.Scalar

/-!
# Comparisons

* `Comparison` — the six comparisons of two numbers; `Comparison.holds`.
* `Comparison.symbol`, `Comparison.ofChar?` — how a comparison is written and read. A single
  equals sign is read as a comparison too.
-/

set_option autoImplicit false

namespace Honeycomb

/-- A comparison of two numbers. -/
inductive Comparison where
  | less
  | atMost
  | greater
  | atLeast
  | equal
  | notEqual
deriving Repr, DecidableEq

namespace Comparison

/-- The comparison holds. What is not a number differs from everything and compares with
nothing. -/
def holds {α : Type} [Scalar α] : Comparison → α → α → Bool
  | less, a, b => a < b
  | atMost, a, b => a ≤ b
  | greater, a, b => b < a
  | atLeast, a, b => b ≤ a
  | equal, a, b => a == b
  | notEqual, a, b => !(a == b)

/-- The symbol of a comparison. -/
def symbol : Comparison → String
  | less => "<"
  | atMost => "<="
  | greater => ">"
  | atLeast => ">="
  | equal => "=="
  | notEqual => "!="

/-- The comparison that starts with a character, when an equals sign follows it or not. -/
def ofChar? : Char → Bool → Option Comparison
  | '<', false => some less
  | '<', true => some atMost
  | '>', false => some greater
  | '>', true => some atLeast
  | '=', _ => some equal
  | '!', true => some notEqual
  | _, _ => none

end Comparison

end Honeycomb
