import Honeycomb.Error
import Honeycomb.File.Path

/-!
# File formats

* `FileFormat` — the formats of structure files by their extensions.
* `FileFormat.read`, `FileFormat.ofPath` — a format by name, or by the extension of a path.
* `outputPath` — the path of a file that is named for its stem and its format.
-/

set_option autoImplicit false

namespace Honeycomb

/-- A format of structure files. Dump files are known by name only. -/
inductive FileFormat where
  | xyz
  | data
  | dump
deriving Repr, DecidableEq

namespace FileFormat

/-- The extension of files in a format, which is also its name. -/
def extension : FileFormat → String
  | xyz => "xyz"
  | data => "data"
  | dump => "dump"

/-- The format with a name. -/
def ofName? (s : String) : Option FileFormat :=
  [xyz, data, dump].find? (·.extension == s)

theorem ofName?_extension (f : FileFormat) : ofName? f.extension = some f := by
  cases f <;> decide

variable {α : Type}

/-- Reads the name of a format in any case, with dots in front. No letter outside ASCII has one
of the letters of these names for its small form. -/
def read (s : String) : Except (Error α) FileFormat :=
  match ofName? (String.ofList (Text.lowered (s.toList.dropWhile (· == '.')))) with
  | some f => .ok f
  | none => .error (.unsupportedFormat s)

/-- The format that the extension of a path names. -/
def ofPath (path : String) : Except (Error α) FileFormat :=
  match Path.extension? path with
  | some extension => read extension
  | none => .error (.unsupportedFormat (path ++ " has no extension"))

end FileFormat

/-- `directory/stem.extension`, or `stem.extension`. -/
def outputPath (stem : String) (directory : Option String) (format : FileFormat) : String :=
  let name := stem ++ "." ++ format.extension
  match directory with
  | some d => Path.join d name
  | none => name

end Honeycomb
