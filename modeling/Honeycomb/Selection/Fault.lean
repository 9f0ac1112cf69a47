import Honeycomb.Number.Digits
import Honeycomb.Text.Quoted

/-!
# What can be wrong with a selection

* `Expected` — what a selection lacks at some place.
* `ArgumentFault` — why the arguments of a region are refused.
* `ParseFault`, `ParseError` — why a selection is refused, and the character it was seen at.
-/

set_option autoImplicit false

namespace Honeycomb.Selection

/-- What should have stood where something else stands. -/
inductive Expected where
  | term
  | comparison
  | number
  | radius
  | ofWord
  | connective
  | element
deriving Repr, DecidableEq

/-- How a message names what is expected. -/
def Expected.text : Expected → String
  | term => "selection term"
  | comparison => "comparison operator"
  | number => "number"
  | radius => "radius"
  | ofWord => "'of'"
  | connective => "'and' or 'or'"
  | element => "element symbol"

/-- Why the text of an argument is not a value. -/
inductive ValueFault where
  | unterminated (text : String)
  | notNumber (text : String)
  | components (count : Nat)
deriving Repr, DecidableEq

/-- How a message names the fault. -/
def ValueFault.text : ValueFault → String
  | unterminated t => "unterminated list '" ++ t ++ "'"
  | notNumber t => "'" ++ t ++ "' is not a number"
  | components n => "expected 3 components, got " ++ toString n

/-- Why the arguments of a region are refused. -/
inductive ArgumentFault where
  | notAssignment (text : String)
  | value (key : String) (fault : ValueFault)
  | repeated (key : String)
  | notPoint (key : String)
  | notNumber (key : String)
  | negative (key : String) (value : Double)
  | unknown (keys : List String)
deriving Repr

/-- How a message names the fault. -/
def ArgumentFault.text : ArgumentFault → String
  | notAssignment t => "'" ++ t ++ "' is not key=value"
  | value key fault => key ++ ": " ++ fault.text
  | repeated key => "'" ++ key ++ "' given twice"
  | notPoint key => key ++ " must be [x, y, z]"
  | notNumber key => key ++ " must be a number"
  | negative key v => key ++ " must be >= 0, got " ++ plainText v
  | unknown keys => "unknown argument(s) " ++ Text.bracketed (keys.map Text.quoted)

/-- Why a selection is refused. -/
inductive ParseFault where
  | empty
  | unknownKeyword (word : String)
  | unbalanced
  | unexpectedEnd (expected : Expected)
  | unexpected (expected : Expected) (found : String)
  | invalidNumber (text : String)
  | emptyList (keyword : String)
  | unknownRegion (name : String)
  | badArguments (region : String) (fault : ArgumentFault)
deriving Repr

/-- A fault of a selection and the character, counted from zero, that it was seen at. -/
structure ParseError where
  position : Nat
  fault : ParseFault
deriving Repr

/-- The message for a refused selection. -/
def ParseError.message (e : ParseError) : String :=
  let place := " at position " ++ toString e.position
  match e.fault with
  | .empty => "empty selection string"
  | .unknownKeyword word => "unknown keyword '" ++ word ++ "'" ++ place
  | .unbalanced => "unbalanced parenthesis" ++ place
  | .unexpectedEnd expected => "expected " ++ expected.text ++ ", got end of input"
  | .unexpected expected found =>
    "expected " ++ expected.text ++ place ++ ", found '" ++ found ++ "'"
  | .invalidNumber text => "invalid number '" ++ text ++ "'" ++ place
  | .emptyList keyword => "'" ++ keyword ++ "'" ++ place ++ " needs at least one value"
  | .unknownRegion name => "unknown region '" ++ name ++ "'" ++ place
  | .badArguments region fault =>
    "bad arguments for " ++ region ++ place ++ ": " ++ fault.text

end Honeycomb.Selection
