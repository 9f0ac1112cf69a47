import Honeycomb.Number.Reading
import Honeycomb.Region
import Honeycomb.Selection.Fault
import Honeycomb.Text.Words

/-!
# Arguments of a region

The text between the parentheses of `Name(key=value, ...)`.

* `Argument` — a number, or a point `[x, y, z]`.
* `Arguments.read` — the arguments by key; a key is given once.
* `Region.refine` — a region with the values of some arguments in place of its own, and the
  arguments that it has no use for.
* `readRegion` — the region of a shape with the given arguments and none left over.
-/

set_option autoImplicit false

namespace Honeycomb.Selection

/-- The value of an argument. -/
inductive Argument where
  | number (a : Double)
  | point (p : Vec3 Double)
deriving Repr

/-- Arguments by key. -/
abbrev Arguments := List (String × Argument)

/-- Cuts a text at the commas that stand outside all brackets; `depth` counts the brackets
that are open, and a closing one counts whether or not it closes something. -/
def cutArguments (depth : Int) : List Char → List (List Char)
  | [] => [[]]
  | c :: cs =>
    if c = ',' ∧ depth = 0 then [] :: cutArguments depth cs
    else
      let depth :=
        if c = '[' ∨ c = '(' then depth + 1
        else if c = ']' ∨ c = ')' then depth - 1
        else depth
      match cutArguments depth cs with
      | [] => [[c]]
      | part :: parts => (c :: part) :: parts

/-- Reads a number with blanks around it. -/
def readNumber (cs : List Char) : Except ValueFault Double :=
  let text := Text.trim cs
  match readDouble text with
  | some a => .ok a
  | none => .error (.notNumber (String.ofList text))

/-- Reads the value of an argument with blanks around it. -/
def readArgument (cs : List Char) : Except ValueFault Argument :=
  match Text.trim cs with
  | '[' :: inner =>
    if inner.getLast? = some ']' then do
      match ← (Text.cut (· == ',') inner.dropLast).mapM readNumber with
      | [x, y, z] => .ok (.point ⟨x, y, z⟩)
      | values => .error (.components values.length)
    else .error (.unterminated (String.ofList ('[' :: inner)))
  | text => .number <$> readNumber text

/-- Reads `key=value`. -/
def readAssignment (part : List Char) : Except ArgumentFault (String × Argument) :=
  match Text.splitAtFirst '=' part with
  | none => .error (.notAssignment (String.ofList (Text.trim part)))
  | some (key, value) =>
    let key := String.ofList (Text.trim key)
    match readArgument value with
    | .ok a => .ok (key, a)
    | .error fault => .error (.value key fault)

namespace Arguments

/-- Reads arguments after those that are known already. -/
def readAfter (known : Arguments) : List (List Char) → Except ArgumentFault Arguments
  | [] => .ok known
  | part :: parts =>
    match readAssignment part with
    | .error fault => .error fault
    | .ok (key, a) =>
      if (known.lookup key).isSome then .error (.repeated key)
      else readAfter (known ++ [(key, a)]) parts

/-- Reads arguments separated by commas; a blank text has none. -/
def read (text : List Char) : Except ArgumentFault Arguments :=
  if (Text.trim text).isEmpty then .ok [] else readAfter [] (cutArguments 0 text)

/-- The argument under the first of several keys that is given, and the other arguments. -/
def take (args : Arguments) : List String → Option (Argument × Arguments)
  | [] => none
  | key :: keys =>
    match args.lookup key with
    | some a => some (a, args.filter (·.1 != key))
    | none => take args keys

/-- A point under one of several keys, of which the first is the proper one. -/
def takePoint (args : Arguments) (keys : List String) (default : Vec3 Double) :
    Except ArgumentFault (Vec3 Double × Arguments) :=
  match args.take keys with
  | none => .ok (default, args)
  | some (.point p, rest) => .ok (p, rest)
  | some (.number _, _) => .error (.notPoint (keys.headD ""))

/-- A length, which is not negative. -/
def takeLength (args : Arguments) (key : String) (default : Double) :
    Except ArgumentFault (Double × Arguments) :=
  match args.take [key] with
  | none => .ok (default, args)
  | some (.number a, rest) => if 0 ≤ a then .ok (a, rest) else .error (.negative key a)
  | some (.point _, _) => .error (.notNumber key)

/-- All arguments have been used. -/
def finish (args : Arguments) : Except ArgumentFault Unit :=
  if args.isEmpty then .ok ()
  else .error (.unknown ((args.map (·.1)).mergeSort fun a b => (compare a b).isLE))

end Arguments

/-- A region with the values of some arguments in place of its own, and the other arguments. -/
def refine (region : Region Double) (args : Arguments) :
    Except ArgumentFault (Region Double × Arguments) :=
  match region with
  | .sphere center radius => do
    let (center, args) ← args.takePoint ["center", "c"] center
    let (radius, args) ← args.takeLength "r" radius
    return (.sphere center radius, args)
  | .cylinder bottom top radius => do
    let (bottom, args) ← args.takePoint ["p1"] bottom
    let (top, args) ← args.takePoint ["p2"] top
    let (radius, args) ← args.takeLength "r" radius
    return (.cylinder bottom top radius, args)
  | .parallelepiped corner u v w => do
    let (corner, args) ← args.takePoint ["o"] corner
    let (u, args) ← args.takePoint ["u"] u
    let (v, args) ← args.takePoint ["v"] v
    let (w, args) ← args.takePoint ["w"] w
    return (.parallelepiped corner u v w, args)
  | .cuboid box => do
    let (low, args) ← args.takePoint ["pmin"] box.low
    let (high, args) ← args.takePoint ["pmax"] box.high
    return (.cuboid ⟨low, high⟩, args)
  | .ellipsoid center a b c => do
    let (center, args) ← args.takePoint ["center"] center
    let (a, args) ← args.takeLength "a" a
    let (b, args) ← args.takeLength "b" b
    let (c, args) ← args.takeLength "c" c
    return (.ellipsoid center a b c, args)

/-- The region of a shape with the given arguments. -/
def Arguments.region (args : Arguments) (shape : Shape) :
    Except ArgumentFault (Region Double) := do
  let (region, rest) ← refine shape.standard args
  rest.finish
  return region

/-- Reads the call of a region. Arguments that cannot be read at all are reported before an
unknown name. -/
def readRegion (name arguments : String) : Except ParseFault (Region Double) :=
  match Arguments.read arguments.toList with
  | .error fault => .error (.badArguments name fault)
  | .ok args =>
    match Shape.ofName? name with
    | none => .error (.unknownRegion name)
    | some shape => (args.region shape).mapError (.badArguments name)

end Honeycomb.Selection
