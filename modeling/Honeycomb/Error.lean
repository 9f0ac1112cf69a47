import Honeycomb.Selection.Fault

/-!
# Errors

Every operation that can fail says why as a value; the wording is made in one place.

* `ParameterFault` — a parameter that cannot be used, with the numbers that show it.
* `FormatFault` — a line of a structure file that cannot be read.
* `Error` — all causes of failure; `Error.message` is what a user reads.

The causes are kept over the scalars of the computation; messages exist for doubles.
-/

set_option autoImplicit false

namespace Honeycomb

/-- A parameter that cannot be used. -/
inductive ParameterFault (α : Type) where
  | axisName (name : String)
  | indicesZero
  | indicesText (text : String)
  | chiralTypeName (name : String)
  | handednessName (name : String)
  | propertyName (name : String)
  | filterWithoutComparison (text : String)
  | filterValue (text : String)
  | latticeLength (name : String) (length : α)
  | degenerateAngle (gamma : α)
  | flatAngles (alpha beta gamma : α)
  | coplanarVectors
  | scalingDeterminant (det : Int) (rows : List (List Int))
  | scalingTooLarge (det limit : Int)
  | scalingSingular
  | scanTooLarge (points limit : Int)
  | pointOutOfRange (coordinate : Int)
  | pointCount (found expected : Nat)
  | repeatCount (name : String) (count : Int)
  | noRepeats (name : String)
  | zeroRotationAxis
  | normOrder (p : α)
  | neighborCutoff (cutoff : α)
  | noLayers
  | layerSpacing (spacing : α)
  | layerAngles (expected found : Nat)
  | edgeLength (name : String) (length : α)
  | bondLength (bond : α)
  | tubeLength (length : α)
  | referenceFrame (index frames : Nat)
  | negativeAttribute (name : String) (value : Int)
  | settingsText
  | settingsSpacing (spacing : α)
  | settingsCutoff (cutoff : α)
deriving Repr

/-- The name of the parameter. -/
def ParameterFault.parameter {α : Type} : ParameterFault α → String
  | axisName _ => "axis"
  | indicesZero | indicesText _ => "chirality"
  | chiralTypeName _ => "chiral type"
  | handednessName _ => "handedness"
  | propertyName _ => "chirality property"
  | filterWithoutComparison _ | filterValue _ => "property filter"
  | latticeLength name _ => name
  | degenerateAngle _ => "gamma"
  | flatAngles _ _ _ => "angles"
  | coplanarVectors => "lattice"
  | scalingDeterminant _ _ | scalingTooLarge _ _ | scalingSingular | scanTooLarge _ _
  | pointOutOfRange _ | pointCount _ _ => "scaling matrix"
  | repeatCount name _ | noRepeats name => name
  | zeroRotationAxis => "rotation axis"
  | normOrder _ => "p-norm"
  | neighborCutoff _ => "neighbor cutoff"
  | noLayers => "nlayers"
  | layerSpacing _ => "layer spacing"
  | layerAngles _ _ => "layer rotation angles"
  | edgeLength name _ => name
  | bondLength _ => "bond"
  | tubeLength _ => "tube length"
  | referenceFrame _ _ => "reference frame"
  | negativeAttribute name _ => name
  | settingsText => "config file"
  | settingsSpacing _ => "layer_spacing"
  | settingsCutoff _ => "nn_cutoff"

/-- Why the parameter cannot be used. -/
def ParameterFault.reason : ParameterFault Double → String
  | axisName name => "'" ++ name ++ "' is not one of x, y, z"
  | indicesZero => "(0, 0) does not define a tube"
  | indicesText text => "cannot parse '" ++ text ++ "' as (n, m)"
  | chiralTypeName name => "unknown type '" ++ name ++ "'"
  | handednessName name => "expected left or right, got '" ++ name ++ "'"
  | propertyName name => "unknown property '" ++ name ++ "'"
  | filterWithoutComparison text => "no comparison in '" ++ text ++ "'"
  | filterValue text => "invalid value '" ++ text ++ "'"
  | latticeLength _ a => "lattice length must be > 0, got " ++ plainText a
  | degenerateAngle gamma => "degenerate angle " ++ plainText gamma
  | flatAngles a b c =>
    "(" ++ ", ".intercalate [plainText a, plainText b, plainText c] ++ ") do not span a volume"
  | coplanarVectors => "lattice vectors are coplanar"
  | scalingDeterminant det rows =>
    "determinant must be positive, got " ++ toString det ++ " for " ++
      Text.bracketed (rows.map fun row => Text.bracketed (row.map toString))
  | scalingTooLarge det limit =>
    toString det ++ " unit cells exceeds the limit of " ++ toString limit
  | scalingSingular => "matrix is singular"
  | scanTooLarge points limit =>
    "lattice-point search over " ++ toString points ++ " points exceeds the limit of " ++
      toString limit
  | pointOutOfRange v => "lattice point " ++ toString v ++ " out of range"
  | pointCount found expected =>
    "found " ++ toString found ++ " lattice points, expected " ++ toString expected
  | repeatCount _ n => "repeat count must be >= 1, got " ++ toString n
  | noRepeats _ => "repeat count must be >= 1"
  | zeroRotationAxis => "axis vector has zero length"
  | normOrder p => "p must satisfy 1 <= p <= inf, got " ++ plainText p
  | neighborCutoff a | layerSpacing a | settingsSpacing a | settingsCutoff a =>
    "must be >= 0, got " ++ plainText a
  | noLayers => "need at least one layer"
  | layerAngles expected found =>
    "expected " ++ toString expected ++ " angles, got " ++ toString found
  | edgeLength _ a => "edge length must be > 0 nm, got " ++ plainText a
  | bondLength a => "must be > 0, got " ++ plainText a
  | tubeLength a => "must be > 0 nm, got " ++ plainText a
  | referenceFrame index frames =>
    "index " ++ toString index ++ " out of range (0.." ++ toString frames ++ ")"
  | negativeAttribute _ n => "expected a non-negative integer, got " ++ toString n
  | settingsText => "not a settings object"

/-- A structure file that cannot be read, by what is wrong in the line. -/
inductive FormatFault where
  | xyzEmpty
  | xyzAtomCount (text : String)
  | xyzFields
  | xyzCoordinate (axis : Char) (text : String)
  | xyzAtoms (declared found : Nat)
  | dataMissing (what : String)
  | dataInvalid (what text : String)
  | dataFields
  | dataAtoms (declared found : Nat)
deriving Repr, DecidableEq

/-- The name of the format in a message. -/
def FormatFault.format : FormatFault → String
  | xyzEmpty | xyzAtomCount _ | xyzFields | xyzCoordinate _ _ | xyzAtoms _ _ => "xyz"
  | dataMissing _ | dataInvalid _ _ | dataFields | dataAtoms _ _ => "lammps data"

/-- What is wrong in the line. -/
def FormatFault.reason : FormatFault → String
  | xyzEmpty => "empty file"
  | xyzAtomCount text => "invalid atom count '" ++ text ++ "'"
  | xyzFields => "expected 'element x y z'"
  | xyzCoordinate axis text =>
    "invalid " ++ axis.toString ++ " coordinate '" ++ text ++ "'"
  | dataMissing what => "missing " ++ what
  | dataInvalid what text => "invalid " ++ what ++ " '" ++ text ++ "'"
  | dataFields => "expected 'id mol type q x y z'"
  | xyzAtoms declared found | dataAtoms declared found =>
    "header declares " ++ toString declared ++ " atoms, found " ++ toString found

/-- Why an operation failed. -/
inductive Error (α : Type) where
  | parameter (fault : ParameterFault α)
  | selection (error : Selection.ParseError)
  | attributeKind (name expected found : String)
  | unknownAttribute (name : String)
  | nonFiniteAtom (index : Nat)
  | nonFiniteCenter
  | format (line : Nat) (fault : FormatFault)
  | unsupportedFormat (text : String)
  | file
deriving Repr

/-- The message for a failure. -/
def Error.message : Error Double → String
  | parameter fault => "invalid " ++ fault.parameter ++ ": " ++ fault.reason
  | selection e => "selection parse error: " ++ e.message
  | attributeKind name expected found =>
    "type mismatch for attribute '" ++ name ++ "': expected " ++ expected ++ ", found " ++ found
  | unknownAttribute name => "unknown atom attribute '" ++ name ++ "'"
  | nonFiniteAtom i => "spatial index error: atom " ++ toString i ++ ": NonFiniteCoordinate"
  | nonFiniteCenter => "spatial index error: radius query: NonFiniteCoordinate"
  | format line fault =>
    fault.format ++ " format error at line " ++ toString line ++ ": " ++ fault.reason
  | unsupportedFormat text => "unsupported structure format: " ++ text
  | file => "file cannot be read or written"

end Honeycomb
