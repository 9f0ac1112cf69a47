import Honeycomb.Chirality.Property
import Honeycomb.Chirality.Reading
import Honeycomb.CommandLine.Arguments
import Honeycomb.File.Format
import Honeycomb.Structure.Graphene

/-!
# Commands

* `Plan` — the structure that a command makes, as far as the command says.
* `OutputOptions` — what is done with it.
* `Command` — a command with its options; `Invocation.read` reads the whole command line.
-/

set_option autoImplicit false

namespace Honeycomb.CommandLine

/-- The elements and the bond length of a structure; without a bond length the settings
decide. -/
structure BondOptions where
  bond : Option Double
  basis : Basis

/-- Layers. Without a spacing the settings decide. -/
structure LayerOptions where
  count : Nat
  spacing : Option Double
  rotation : Double

/-- What is made. Edges and tube lengths are in nanometers. -/
inductive Plan where
  | sheets (cell : SheetCell Double) (layers : LayerOptions) (isAligned : Bool)
  | bilayer (armchair zigzag : Double) (layers : LayerOptions)
  | tube (n m cells : Nat) (length : Option Double)
  | unrolled (n m cellsAround cellsAlong : Nat) (layers : LayerOptions) (shift : Double)

/-- What is done with a structure that was made. -/
structure OutputOptions where
  format : Option FileFormat
  directory : Option String
  name : Option String
  selection : Option String
  keepsPlace : Bool
  coordinationCutoff : Option Double
  measured : List Nat

/-- A command. -/
inductive Command where
  | generate (plan : Plan) (bonds : BondOptions) (output : OutputOptions)
  | chiralities (bound : Nat) (handedness : Option Handedness) (types : List ChiralType)
      (filters : List (PropertyFilter Double))
  | convert (input output : String)

/-! ## Values -/

/-- A number. -/
def numberIn (s : String) : Option Double :=
  readDouble s.toList

/-- A count of 64 bits. -/
def countIn (s : String) : Option Nat :=
  readCount s.toList

/-- A count of 32 bits, which may have a sign. -/
def indexIn (s : String) : Option Nat :=
  (readSigned s.toList).bind fun n =>
    if 0 ≤ n ∧ n < 4294967296 then some n.toNat else none

/-- A path, which is not empty. -/
def pathIn (s : String) : Option String :=
  if s.isEmpty then none else some s

/-- A value of the library by its text. -/
def parsedBy {β : Type} (read : String → Except (Error Double) β) (s : String) : Option β :=
  (read s).toOption

/-- A format by its name. -/
def formatIn : String → Option FileFormat :=
  parsedBy FileFormat.read

/-- A chirality's handedness. -/
def handednessIn : String → Option Handedness :=
  parsedBy Handedness.read

/-- A type of chiralities. -/
def chiralTypeIn : String → Option ChiralType :=
  parsedBy ChiralType.read

/-- A condition on a property of tubes. -/
def filterIn : String → Option (PropertyFilter Double) :=
  parsedBy PropertyFilter.read

/-- Ids, with commas between them. -/
def idsIn (s : String) : Option (List Nat) :=
  (Text.cut (· == ',') s.toList).mapM readCount

/-! ## Rules -/

/-- The texts that a reader accepts. -/
def isReadBy {β : Type} (decode : String → Option β) (s : String) : Bool :=
  (decode s).isSome

/-- The options of every command. -/
def commonRules : List OptionRule :=
  [{ name := "verbose", letter := some 'v', arity := 0 },
    { name := "help", letter := some 'h', arity := 0, asks := some .helpAsked }]

/-- The options in front of the command. -/
def leadingRules : List OptionRule :=
  commonRules ++
    [{ name := "version", letter := some 'V', arity := 0, asks := some .versionAsked }]

/-- Options that take one value, which `decode` reads. -/
def valueRules {β : Type} (decode : String → Option β) (names : List String) :
    List OptionRule :=
  names.map fun name => { name, accepts := isReadBy decode }

/-- The two indices of a chirality as positional arguments. -/
def indexPlaces : List (String → Bool) :=
  [isReadBy indexIn, isReadBy indexIn]

/-- The options of all commands that make a structure. -/
def outputRules : List OptionRule :=
  commonRules ++ valueRules numberIn ["bond", "cn-cutoff"] ++ valueRules formatIn ["format"] ++
    [{ name := "fname" }, { name := "select" }, { name := "no-center", arity := 0 },
      { name := "basis", arity := 2, isRepeatable := true },
      { name := "output", letter := some 'o', accepts := isReadBy pathIn },
      { name := "measure", accepts := isReadBy idsIn, isRepeatable := true }]

/-! ## Reading -/

namespace Arguments

/-- The bond length and the elements. Elements that are not two in all are carbon. -/
def bonds (a : Arguments) : Except Refusal BondOptions := do
  let bond ← a.option "bond" numberIn
  let basis : Basis :=
    match a.texts "basis" with
    | [first, second] => ⟨first, second⟩
    | _ => {}
  return ⟨bond, basis⟩

/-- The layers; the numbers that are not given stand for one layer without turn. -/
def layers (a : Arguments) (usual : Nat) : Except Refusal LayerOptions := do
  return {
    count := (← a.option "nlayers" countIn).getD usual
    spacing := ← a.option "layer-spacing" numberIn
    rotation := (← a.option "rotation" numberIn).getD 0 }

/-- What is done with a structure. -/
def output (a : Arguments) : Except Refusal OutputOptions := do
  return {
    format := ← a.option "format" formatIn
    directory := ← a.option "output" pathIn
    name := ← a.option "fname" some
    selection := ← a.option "select" some
    keepsPlace := a.isGiven "no-center"
    coordinationCutoff := ← a.option "cn-cutoff" numberIn
    measured := (← a.all "measure" idsIn).flatten }

/-- An edge of a sheet. -/
def edge (a : Arguments) (name : String) : Except Refusal Double := do
  return (← a.option name numberIn).getD 10.0

/-- The plan that `plan` reads, and the options that follow from `rules`. -/
def generation (rules : List OptionRule) (places : List (String → Bool)) (words : List String)
    (plan : Arguments → Except Refusal Plan) : Except Refusal (Command × Arguments) := do
  let a ← read (outputRules ++ rules) places words
  return (.generate (← plan a) (← a.bonds) (← a.output), a)

/-- Sheets of the conventional cell, or of the primitive one. -/
def sheets (a : Arguments) : Except Refusal Plan := do
  let armchair ← a.edge "armchair"
  let zigzag ← a.edge "zigzag"
  let layers ← a.layers 1
  let isAligned := a.isGiven "aa"
  match ← a.option "primitive" numberIn with
  | none => return .sheets (.conventional armchair zigzag) layers isAligned
  | some edge =>
    if a.isGiven "armchair" || a.isGiven "zigzag" then
      .error (.misuse "a primitive cell has no armchair and zigzag edges")
    else return .sheets (.primitive edge) layers isAligned

/-- Two sheets. -/
def bilayer (a : Arguments) : Except Refusal Plan := do
  return .bilayer (← a.edge "armchair") (← a.edge "zigzag") (← a.layers 2)

/-- A count of unit cells. -/
def cells (a : Arguments) (name : String) : Except Refusal Nat := do
  return (← a.option name indexIn).getD 1

/-- A tube. -/
def tube (a : Arguments) : Except Refusal Plan := do
  return .tube (← a.positional 0 "N" indexIn) (← a.positional 1 "M" indexIn) (← a.cells "n3")
    (← a.option "length" numberIn)

/-- Unrolled tubes. -/
def unrolled (a : Arguments) : Except Refusal Plan := do
  return .unrolled (← a.positional 0 "N" indexIn) (← a.positional 1 "M" indexIn) (← a.cells "n1")
    (← a.cells "n3") (← a.layers 1) ((← a.option "layer-shift" numberIn).getD 0)

/-- A list of chiralities. -/
def chiralities (a : Arguments) : Except Refusal Command := do
  return .chiralities ((← a.option "imax" indexIn).getD 10)
    (← a.option "handedness" handednessIn)
    (← a.all "type" chiralTypeIn)
    (← a.all "filter" filterIn)

end Arguments

/-- The names of the commands. -/
def commandNames : List String :=
  ["graphene", "bilayer", "swnt", "unrolled", "chiralities", "convert", "help"]

/-- Help is asked for in general, or about one command. -/
def helpAbout (words : List String) : Refusal :=
  match words with
  | [] => .helpAsked
  | [name] =>
    if commandNames.contains name then .helpAsked
    else .misuse ("there is no command '" ++ name ++ "'")
  | _ => .misuse "help is about one command"

/-- Reads the arguments behind the name of a command. -/
def Command.read (name : String) (words : List String) :
    Except Refusal (Command × Arguments) := do
  match name with
  | "graphene" =>
    Arguments.generation
      ({ name := "aa", arity := 0 } :: valueRules countIn ["nlayers"] ++
        valueRules numberIn ["armchair", "zigzag", "primitive", "layer-spacing", "rotation"])
      [] words Arguments.sheets
  | "bilayer" =>
    Arguments.generation
      (valueRules numberIn ["armchair", "zigzag", "rotation", "layer-spacing"])
      [] words Arguments.bilayer
  | "swnt" =>
    Arguments.generation (valueRules indexIn ["n3"] ++ valueRules numberIn ["length"])
      indexPlaces words Arguments.tube
  | "unrolled" =>
    Arguments.generation
      (valueRules indexIn ["n1", "n3"] ++ valueRules countIn ["nlayers"] ++
        valueRules numberIn ["layer-spacing", "layer-shift", "rotation"])
      indexPlaces words Arguments.unrolled
  | "chiralities" =>
    let a ← Arguments.read
      (commonRules ++ valueRules indexIn ["imax"] ++ valueRules handednessIn ["handedness"] ++
        [{ name := "type", accepts := isReadBy chiralTypeIn, isRepeatable := true },
          { name := "filter", accepts := isReadBy filterIn, isRepeatable := true }])
      [] words
    return (← a.chiralities, a)
  | "convert" =>
    let a ← Arguments.read commonRules [isReadBy pathIn, isReadBy pathIn] words
    return (.convert (← a.positional 0 "INPUT" pathIn) (← a.positional 1 "OUTPUT" pathIn), a)
  | "help" => .error (helpAbout words)
  | _ => .error (.misuse ("there is no command '" ++ name ++ "'"))

/-- A command, and whether details are asked for. -/
structure Invocation where
  command : Command
  isVerbose : Bool

namespace Invocation

/-- Reads the options in front of a command, its name, and its arguments. -/
def readFrom (s : Scan) : List String → Except Refusal Invocation
  | [] => .error (.misuse "a command is missing")
  | word :: words =>
    if word.startsWith "-" && word != "-" then
      match s.step leadingRules [] word with
      | .ok s => readFrom s words
      | .error e => .error e
    else if s.isLiteral then .error (.misuse ("unexpected argument '" ++ word ++ "'"))
    else do
      let (command, a) ← Command.read word words
      return ⟨command, s.arguments.isGiven "verbose" || a.isGiven "verbose"⟩

/-- Reads a command line. -/
def read (words : List String) : Except Refusal Invocation :=
  readFrom {} words

end Invocation

end Honeycomb.CommandLine
