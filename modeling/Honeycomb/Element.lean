import Honeycomb.Number.Scalar
import Honeycomb.Number.Reading

/-!
# Chemical elements

* `Element` — symbol, atomic number and standard atomic mass, in ten-thousandths of an atomic
  mass unit so that the table is exact.
* `Element.table` — the elements known here, by atomic number.
* `Element.ofSymbol?`, `Element.ofNumber?`, `Element.ofToken?` (a symbol or a number),
  `Element.closest?` (by mass, within a tolerance).
* `atomicNumberOf` — the number that goes with a symbol, zero for an unknown one.
-/

set_option autoImplicit false

namespace Honeycomb

/-- A chemical element. -/
structure Element where
  symbol : String
  number : Nat
  massTenThousandths : Nat
deriving Repr, DecidableEq

namespace Element

/-- The elements known here. -/
def table : List Element :=
  [⟨"H", 1, 10080⟩, ⟨"He", 2, 40026⟩, ⟨"Li", 3, 69400⟩, ⟨"Be", 4, 90122⟩, ⟨"B", 5, 108100⟩,
    ⟨"C", 6, 120110⟩, ⟨"N", 7, 140070⟩, ⟨"O", 8, 159990⟩, ⟨"F", 9, 189980⟩,
    ⟨"Ne", 10, 201800⟩, ⟨"Na", 11, 229900⟩, ⟨"Mg", 12, 243050⟩, ⟨"Al", 13, 269820⟩,
    ⟨"Si", 14, 280850⟩, ⟨"P", 15, 309740⟩, ⟨"S", 16, 320600⟩, ⟨"Cl", 17, 354500⟩,
    ⟨"Ar", 18, 399480⟩, ⟨"K", 19, 390980⟩, ⟨"Ca", 20, 400780⟩, ⟨"Sc", 21, 449560⟩,
    ⟨"Ti", 22, 478670⟩, ⟨"V", 23, 509420⟩, ⟨"Cr", 24, 519960⟩, ⟨"Mn", 25, 549380⟩,
    ⟨"Fe", 26, 558450⟩, ⟨"Co", 27, 589330⟩, ⟨"Ni", 28, 586930⟩, ⟨"Cu", 29, 635460⟩,
    ⟨"Zn", 30, 653800⟩, ⟨"Ga", 31, 697230⟩, ⟨"Ge", 32, 726300⟩, ⟨"As", 33, 749220⟩,
    ⟨"Se", 34, 789710⟩, ⟨"Br", 35, 799040⟩, ⟨"Kr", 36, 837980⟩, ⟨"Mo", 42, 959500⟩,
    ⟨"Pd", 46, 1064200⟩, ⟨"Ag", 47, 1078700⟩, ⟨"Sn", 50, 1187100⟩, ⟨"W", 74, 1838400⟩,
    ⟨"Pt", 78, 1950800⟩, ⟨"Au", 79, 1969700⟩]

/-- The standard atomic mass. -/
def mass {α : Type} [Scalar α] (e : Element) : α :=
  OfScientific.ofScientific e.massTenThousandths true 4

/-- The element with a symbol. -/
def ofSymbol? (symbol : String) : Option Element :=
  table.find? (·.symbol == symbol)

/-- The element with an atomic number. -/
def ofNumber? (number : Nat) : Option Element :=
  table.find? (·.number == number)

/-- The element named by its symbol or by its atomic number. A text that is a number is never
a symbol. -/
def ofToken? (token : List Char) : Option Element :=
  match readIndex token with
  | some n => ofNumber? n
  | none => ofSymbol? (String.ofList token)

/-- The element whose mass is closest to `mass`, if it is within `tolerance`; the first one of
equally close elements. -/
def closest? {α : Type} [Scalar α] (mass tolerance : α) : Option Element :=
  let near := table.filter fun e => Scalar.abs (e.mass - mass) ≤ tolerance
  near.foldl (fun best e =>
    match best with
    | none => some e
    | some b =>
      if Scalar.before (Scalar.abs (b.mass - mass)) (Scalar.abs (e.mass - mass)) then some b
      else some e) none

end Element

/-- The atomic number that goes with a symbol; zero when the element is unknown. -/
def atomicNumberOf (symbol : String) : Nat :=
  match Element.ofSymbol? symbol with
  | some e => e.number
  | none => 0

/-- The standard mass that goes with a symbol; zero when the element is unknown. -/
def standardMassOf {α : Type} [Scalar α] (symbol : String) : α :=
  match Element.ofSymbol? symbol with
  | some e => e.mass
  | none => 0

end Honeycomb
