import Honeycomb.Chirality.Listing
import Honeycomb.CommandLine.Command
import Honeycomb.Report
import Honeycomb.Selection.Evaluation
import Honeycomb.Settings
import Honeycomb.Structure.Generator

/-!
# Carrying out commands

* `Plan.design` — the design that a plan and the settings make.
* `emit` — makes a structure, selects from it, saves it, and reports on it.
* `Command.run` — carries out a command: what is printed, what is noted, and how it failed.
* `execute` — a whole command line, with its exit code.

Files are reached through `FileAccess` only. What was printed before a failure stays printed.
-/

set_option autoImplicit false

namespace Honeycomb.CommandLine

/-! ## Notices -/

/-- How much a notice matters. -/
inductive Level where
  | error
  | warning
  | info
  | detail
deriving Repr, DecidableEq

/-- A text for the user beside the output; it can have more than one line. -/
structure Notice where
  level : Level
  text : String
deriving Repr, DecidableEq

/-- The name that the program gives itself. -/
def programName : String := "nanogen"

/-- The version of the program. -/
def programVersion : String := "0.3.0"

/-- A notice as it is shown. -/
def Notice.shown (n : Notice) : String :=
  let mark :=
    match n.level with
    | .error => "[E]"
    | .warning => "[W]"
    | .info => "[I]"
    | .detail => "[D]"
  mark ++ " " ++ programName ++ ": " ++ n.text ++ "\n"

/-- A notice that the atoms of a file were read or written, as `deed` says. -/
def fileNotice (deed : String) (count : Nat) (place path : String) (format : Option FileFormat) :
    Notice :=
  let name :=
    match (FileFormat.resolve path format : Except (Error Double) FileFormat) with
    | .ok f => " (" ++ f.extension ++ ")"
    | .error _ => ""
  ⟨.info, deed ++ " " ++ toString count ++ " atoms " ++ place ++ " " ++ path ++ name⟩

/-- What a command did: the text it printed, the notices it gave, and why it failed. -/
structure Outcome where
  printed : String := ""
  notices : List Notice := []
  failure : Option (Error Double) := none

/-- One outcome after another. The second part happens only if the first one did not fail. -/
def Outcome.andThen {m : Type → Type} [Monad m] (first : Outcome) (next : m Outcome) :
    m Outcome := do
  match first.failure with
  | some _ => return first
  | none =>
    let second ← next
    return { second with
      printed := first.printed ++ second.printed
      notices := first.notices ++ second.notices }

/-! ## Designs -/

/-- The layers of a plan. -/
def LayerOptions.layers (l : LayerOptions) (settings : Settings) :
    Except (Error Double) (Layers Double) :=
  Layers.ofCount l.count (l.spacing.getD settings.layerSpacing)

/-- The bond length of a plan. -/
def BondOptions.length (b : BondOptions) (settings : Settings) : Double :=
  b.bond.getD settings.bond

/-- A sheet of a cell. -/
def sheetOf (cell : SheetCell Double) (bonds : BondOptions) (settings : Settings) :
    Except (Error Double) (Graphene Double) := do
  let g ←
    match cell with
    | .conventional armchair zigzag => Graphene.conventional armchair zigzag
    | .primitive edge => Graphene.primitive edge
  return (← g.withBond (bonds.length settings)).withBasis bonds.basis

/-- The design of a plan. The first part that does not fit is reported. -/
def Plan.design (plan : Plan) (bonds : BondOptions) (settings : Settings) :
    Except (Error Double) (Design Double) := do
  match plan with
  | .sheets cell layers isAligned =>
    let g ← sheetOf cell bonds settings
    let stack ← layers.layers settings
    let shift := if isAligned then 0 else g.abShift
    return .sheet (g.withLayers ((stack.withShift shift).withIncrement layers.rotation true))
  | .bilayer armchair zigzag layers =>
    let g ← sheetOf (.conventional armchair zigzag) bonds settings
    Design.bilayer g (layers.spacing.getD settings.layerSpacing) layers.rotation true
  | .tube n m cells length =>
    let t ← (Tube.ofChirality (← Chirality.ofIndices n m)).withBond (bonds.length settings)
    let t := t.withBasis bonds.basis
    match length with
    | some l => return .tube (← t.withLength l)
    | none => return .tube (← t.withCells cells)
  | .unrolled n m cellsAround cellsAlong layers shift =>
    let stack ← layers.layers settings
    let stack := (stack.withShift ⟨shift, 0, 0⟩).withIncrement layers.rotation true
    let t ← (FlatTube.ofChirality (← Chirality.ofIndices n m)).withCells cellsAround cellsAlong
    return .flat (((← t.withBond (bonds.length settings)).withBasis bonds.basis).withLayers stack)

/-! ## Output -/

/-- Keeps the selected atoms only. -/
def narrow (c : Collection Double) (selection : Option String) :
    Except (Error Double) (Edit (Collection Double)) :=
  match selection with
  | none => .ok (pure c)
  | some text => do
    let s ← Selection.read text
    s.select c none

/-- A warning when a selection leaves nothing. -/
def emptyNotices (c : Collection Double) : Option String → List Notice
  | none => []
  | some text =>
    if c.isEmpty then [⟨.warning, "selection '" ++ text ++ "' matched no atoms"⟩] else []

/-- The coordination numbers for a cutoff, stored and reported. -/
def reportCoordination (c : Collection Double) (cutoff : Option Double) :
    Except (Error Double) (Collection Double × String) :=
  match cutoff with
  | none => .ok (c, "")
  | some rc =>
    (c.findCoordination c.params.number (some rc)).map fun c =>
      (c, Report.coordination c.coordinationNumbers)

/-- The format to save in. Without one that is asked for, the extension of the file name
decides when it names a format, and the settings otherwise. -/
def chosenFormat (output : OutputOptions) (settings : Settings) : Option FileFormat :=
  match output.format with
  | some f => some f
  | none =>
    let isKnown (name : String) : Bool :=
      (FileFormat.ofPath name : Except (Error Double) FileFormat).isOk
    if (output.name.map isKnown).getD false then none else some settings.format

variable {m : Type → Type} [Monad m]

/-- Saves a structure and reports on it. -/
def saveAndReport (files : FileAccess m) (g : Generator Double) (output : OutputOptions)
    (settings : Settings) : StateT Revision m Outcome := do
  let request : Generator.SaveRequest :=
    { name := output.name
      directory := output.directory
      format := chosenFormat output settings
      center := settings.center && !output.keepsPlace
      comment := some (settings.comment g.design.description) }
  match ← g.save files request with
  | (.error e, _) => return { failure := some e }
  | (.ok path, g) =>
    let measured :=
      if output.measured.isEmpty then ""
      else Report.measurement g.atoms output.measured ++ "\n"
    return {
      printed := Report.summary g.atoms path ++ measured
      notices := [fileNotice "wrote" g.atoms.size "to" path request.format] }

/-- Narrows a structure that was made to the selected atoms, and goes on to report and save. -/
def finish (files : FileAccess m) (g : Generator Double) (output : OutputOptions)
    (settings : Settings) : StateT Revision m Outcome := do
  match narrow g.atoms output.selection with
  | .error e => return { failure := some e }
  | .ok kept =>
    let atoms ← Generator.lift kept
    let notices := emptyNotices atoms output.selection
    match reportCoordination atoms output.coordinationCutoff with
    | .error e => return { notices, failure := some e }
    | .ok (atoms, printed) =>
      Outcome.andThen { printed, notices }
        (saveAndReport files { g with atoms } output settings)

/-- A notice that a structure was made; a tube is told by its length too. -/
def madeNotice (design : Design Double) (count : Nat) : Notice :=
  let extent :=
    match design with
    | .tube t => ", " ++ fixedText 3 t.length ++ " nm long"
    | _ => ""
  ⟨.info, "generated " ++ design.description ++ ": " ++ toString count ++ " atoms" ++ extent⟩

/-- Makes a structure, and selects, reports and saves as asked for. -/
def emit (files : FileAccess m) (design : Design Double) (output : OutputOptions)
    (settings : Settings) : StateT Revision m Outcome := do
  match ← Generator.lift (do (← Generator.ofDesign design).generate true) with
  | (.error e, _) => return { failure := some e }
  | (.ok _, g) =>
    let atoms := { g.atoms with params := settings.neighborParams }
    Outcome.andThen { notices := [madeNotice design atoms.size] }
      (finish files { g with atoms } output settings)

/-! ## Lists of chiralities -/

/-- The cells of a row, with the first two columns flush left. -/
def chiralityRow (indices type diameter angle atoms : String) : String :=
  " ".intercalate [Text.padRight 10 indices, Text.padRight 10 type, Text.padLeft 10 diameter,
    Text.padLeft 12 angle, Text.padLeft 8 atoms] ++ "\n"

/-- A table of chiralities. -/
def chiralityTable (cs : List Chirality) (bond : Double) : String :=
  let rows := cs.map fun c =>
    chiralityRow c.text c.chiralType.name (fixedText 4 (c.diameter bond))
      (fixedText 3 (Scalar.degrees (c.chiralAngle : Double))) (toString c.atomCount)
  String.join (chiralityRow "(n,m)" "type" "dt (A)" "angle (deg)" "atoms" :: rows)

/-! ## Commands -/

/-- Carries out a command. -/
def Command.run (files : FileAccess m) (settings : Settings) : Command → m Outcome
  | .generate plan bonds output =>
    match plan.design bonds settings with
    | .error e => return { failure := some e }
    | .ok design => do
      let (outcome, _) ← (emit files design output settings).run 0
      return outcome
  | .chiralities bound handedness types filters =>
    let all := Chirality.listingUpTo 0 bound handedness (if types.isEmpty then none else some types)
    let listed := Chirality.passing filters settings.bond all
    return { printed := chiralityTable listed settings.bond
             notices := [⟨.info, toString listed.length ++ " chiralities"⟩] }
  | .convert input output => do
    match ← convertStructure files input output none none with
    | .error e => return { failure := some e }
    | .ok s =>
      return {
        notices :=
          [fileNotice "read" s.atoms.length "from" input none,
            fileNotice "wrote" s.atoms.length "to" output none,
            ⟨.info, "converted " ++ input ++ " -> " ++ output⟩] }

/-- What a command line leads to. -/
structure Exit where
  code : Nat
  printed : String
  notices : List Notice

/-- The commands and their options. -/
def usage : String :=
  let lines : List String := [
    "Usage: nanogen [-v] COMMAND",
    "",
    "  graphene     --armchair NM --zigzag NM | --primitive NM, --nlayers, --layer-spacing,",
    "               --rotation, --aa",
    "  bilayer      --armchair NM --zigzag NM --layer-spacing --rotation",
    "  swnt N M     --n3 | --length NM",
    "  unrolled N M --n1 --n3 --nlayers --layer-spacing --layer-shift --rotation",
    "  chiralities  --imax --handedness --type --filter",
    "  convert INPUT OUTPUT",
    "",
    "All structures: --bond, --basis E1 E2, --format, -o/--output DIR, --fname NAME,",
    "                --select TEXT, --no-center, --cn-cutoff A, --measure IDS"]
  String.join (lines.map (· ++ "\n"))

/-- The exit for a command line that is not carried out. -/
def Refusal.exit : Refusal → Exit
  | misuse reason => ⟨2, "", [⟨.error, reason⟩]⟩
  | helpAsked => ⟨0, usage, []⟩
  | versionAsked => ⟨0, programName ++ " " ++ programVersion ++ "\n", []⟩

/-- The exit for a command that was carried out. -/
def Outcome.exit (o : Outcome) : Exit :=
  match o.failure with
  | none => ⟨0, o.printed, o.notices⟩
  | some e => ⟨1, o.printed, o.notices ++ [⟨.error, e.message⟩]⟩

/-- The settings in the text of the settings file. Without a file, and with one that cannot be
used, the usual ones hold. -/
def settingsOf (text : Option String) : Settings :=
  match text.map Settings.read with
  | some (.ok s) => s
  | _ => {}

/-- What the settings say about structures. -/
def settingsNotice (s : Settings) : Notice :=
  ⟨.detail, "bond length " ++ plainText s.bond ++ " A, layer spacing " ++
    plainText s.layerSpacing ++ " A"⟩

/-- The exit for a command line that was read: with details only if they are asked for. -/
def Invocation.finish (i : Invocation) (settings : Settings) (o : Outcome) : Exit :=
  let notices := settingsNotice settings :: o.exit.notices
  { o.exit with notices := notices.filter fun n => i.isVerbose || n.level != .detail }

/-- Carries out a command line. -/
def execute (files : FileAccess m) (settingsText : Option String) (words : List String) :
    m Exit :=
  match Invocation.read words with
  | .error refusal => return refusal.exit
  | .ok invocation => do
    let settings := settingsOf settingsText
    let outcome ← invocation.command.run files settings
    return invocation.finish settings outcome

end Honeycomb.CommandLine
