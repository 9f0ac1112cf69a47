import Honeycomb.Number.Digits
import Honeycomb.Selection.Predicate

/-!
# Showing predicates

Predicates and regions as nested lists: the name of the form, then its parts. This is the text
for a person who wants to see how a selection was understood; `readPredicate` reads another
language.
-/

set_option autoImplicit false

namespace Honeycomb

/-- A list: its parts in parentheses. -/
def listed (parts : List String) : String :=
  "(" ++ " ".intercalate parts ++ ")"

/-- A point: its coordinates in brackets. -/
def Vec3.display (v : Vec3 Double) : String :=
  "[" ++ " ".intercalate (v.toList.map plainText) ++ "]"

/-- A region: the name of its shape, and its measures by name. -/
def Region.display (r : Region Double) : String :=
  let point (name : String) (v : Vec3 Double) : String := name ++ "=" ++ v.display
  let length (name : String) (a : Double) : String := name ++ "=" ++ plainText a
  let measures : List String :=
    match r with
    | .sphere c r => [point "center" c, length "r" r]
    | .cylinder p q r => [point "p1" p, point "p2" q, length "r" r]
    | .parallelepiped o u v w => [point "o" o, point "u" u, point "v" v, point "w" w]
    | .cuboid b => [point "pmin" b.low, point "pmax" b.high]
    | .ellipsoid c a b d => [point "center" c, length "a" a, length "b" b, length "c" d]
  listed (r.shape.name :: measures)

/-- A predicate. -/
def Selection.Predicate.display : Predicate Double → String
  | .all => "all"
  | .nothing => "none"
  | .id ids => listed ("id" :: ids.map toString)
  | .molecule ids => listed ("molid" :: ids.map toString)
  | .type ids => listed ("type" :: ids.map toString)
  | .element symbols => listed ("element" :: symbols)
  | .compare axis c value => listed [c.symbol, axis.name, plainText value]
  | .within radius p => listed ["within", plainText radius, p.display]
  | .exwithin radius p => listed ["exwithin", plainText radius, p.display]
  | .inside region => region.display
  | .not p => listed ["not", p.display]
  | .and p q => listed ["and", p.display, q.display]
  | .or p q => listed ["or", p.display, q.display]

end Honeycomb
