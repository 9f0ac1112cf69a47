import Honeycomb.Collection.Basic
import Honeycomb.File.Format
import Honeycomb.Json.Value
import Honeycomb.Structure.Layers

/-!
# Settings

What a user sets for all structures, kept as JSON.

* `Settings` — the values, with those that hold when nothing is set.
* `Settings.check` — the bond length is positive, the distances are not negative.
* `Settings.ofValue` — the settings in a JSON value: an object whose other members are passed
  over, or a list of the values in their order. What is left out has its usual value; what is
  given twice, or is of another kind, is refused.
* `Settings.read`, `Settings.text` — the settings in a text, and the text of settings.
-/

set_option autoImplicit false

namespace Honeycomb

/-- What a user sets for all structures. No neighbor cutoff means that distance does not matter;
the comment line stands for the description of a structure. -/
structure Settings where
  bond : Double := 1.42
  layerSpacing : Double := 3.35
  neighborNumber : Nat := 6
  neighborCutoff : Option Double := none
  format : FileFormat := .xyz
  center : Bool := true
  commentLine : Option String := none

namespace Settings

/-- The names of the values in a settings file, in their order. -/
def fieldNames : List String :=
  ["bond", "layer_spacing", "nn_number", "nn_cutoff", "default_format", "center_centroid",
    "comment_line"]

/-- The settings, if they make sense. -/
def check (s : Settings) : Except (Error Double) Settings :=
  if ¬ 0 < s.bond then .error (.parameter (.bondLength s.bond))
  else if ¬ 0 ≤ s.layerSpacing then .error (.parameter (.settingsSpacing s.layerSpacing))
  else
    match s.neighborCutoff with
    | some cutoff =>
      if 0 ≤ cutoff then .ok s else .error (.parameter (.settingsCutoff cutoff))
    | none => .ok s

/-- Settings are checked, not changed. -/
theorem eq_of_check {s t : Settings} (h : s.check = .ok t) : t = s := by
  unfold check at h
  split at h
  · cases h
  · split at h
    · cases h
    · split at h
      · split at h
        · exact (Except.ok.inj h).symm
        · cases h
      · exact (Except.ok.inj h).symm

/-- How many neighbors are looked for and how far away. -/
def neighborParams (s : Settings) : NeighborParams Double :=
  ⟨s.neighborNumber, s.neighborCutoff, .euclidean⟩

/-- The comment for a structure with a description. -/
def comment (s : Settings) (description : String) : String :=
  match s.commentLine with
  | some line => if line.isEmpty then description else line
  | none => description

/-! ## Reading -/

/-- The number in a JSON value. -/
def floatIn : Json.Value → Option Double
  | .number n => n.float?
  | _ => none

/-- The count in a JSON value. -/
def countIn : Json.Value → Option Nat
  | .number n => n.count?
  | _ => none

/-- The truth value in a JSON value. -/
def boolIn : Json.Value → Option Bool
  | .bool b => some b
  | _ => none

/-- The text in a JSON value. -/
def textIn : Json.Value → Option String
  | .text units => (Json.decodeText units).map String.ofList
  | _ => none

/-- The format in a JSON value: its name, alone or as the key of nothing. -/
def formatIn : Json.Value → Option FileFormat
  | .text units | .object [(units, .null)] => do
    FileFormat.ofName? (String.ofList (← Json.decodeText units))
  | _ => none

/-- A value that may be left open. -/
def optionalIn {β : Type} (decode : Json.Value → Option β) : Json.Value → Option (Option β)
  | .null => some none
  | v => (decode v).map some

/-- The member of a name, read by `decode`; it is given once at most. -/
def member {β : Type} (members : List (String × Json.Value)) (name : String)
    (decode : Json.Value → Option β) (usual : β) : Option β :=
  match members.filter (·.1 == name) with
  | [] => some usual
  | [(_, v)] => decode v
  | _ => none

/-- The settings in named values. -/
def ofMembers (members : List (String × Json.Value)) : Option Settings := do
  let usual : Settings := {}
  return {
    bond := ← member members "bond" floatIn usual.bond
    layerSpacing := ← member members "layer_spacing" floatIn usual.layerSpacing
    neighborNumber := ← member members "nn_number" countIn usual.neighborNumber
    neighborCutoff := ← member members "nn_cutoff" (optionalIn floatIn) usual.neighborCutoff
    format := ← member members "default_format" formatIn usual.format
    center := ← member members "center_centroid" boolIn usual.center
    commentLine := ← member members "comment_line" (optionalIn textIn) usual.commentLine }

/-- The settings in a JSON value. -/
def ofValue : Json.Value → Option Settings
  | .object members => do
    ofMembers (← members.mapM fun (key, v) => do
      return (String.ofList (← Json.decodeText key), v))
  | .list items =>
    if items.length ≤ fieldNames.length then ofMembers (fieldNames.zip items) else none
  | _ => none

/-- Reads and checks settings. -/
def read (text : String) : Except (Error Double) Settings :=
  match (Json.read text).bind ofValue with
  | some s => s.check
  | none => .error (.parameter .settingsText)

/-! ## Writing -/

/-- In a settings file a tie goes to the even digit and great powers of ten have a plus sign. -/
def pointStyle : PointStyle :=
  ⟨.even, true⟩

/-- A number in a settings file; JSON has no others than finite ones. -/
def floatText (x : Double) : String :=
  if x.isFinite then pointedText pointStyle x else "null"

/-- The text of settings. -/
def text (s : Settings) : String :=
  let values :=
    [floatText s.bond, floatText s.layerSpacing, toString s.neighborNumber,
      (s.neighborCutoff.map floatText).getD "null", Json.quoted s.format.extension,
      toString s.center, (s.commentLine.map Json.quoted).getD "null"]
  let members := (fieldNames.zip values).map fun (name, value) =>
    "  " ++ Json.quoted name ++ ": " ++ value
  "\x7b\n" ++ ",\n".intercalate members ++ "\n\x7d"

end Settings

end Honeycomb
