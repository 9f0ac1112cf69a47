import Honeycomb.File.Format
import Honeycomb.File.LammpsData
import Honeycomb.File.Tree
import Honeycomb.File.Xyz

/-!
# Reading and writing structures by format

* `FileFormat.decode?`, `FileFormat.encode?` — the reader and the writer of a format; dump files
  have neither.
* `readStructure`, `writeStructure` — a file in a given format, or in the one that its extension
  names. A format without reader or writer is refused before the file is touched.
* `convertStructure` — reads one file and writes another.
-/

set_option autoImplicit false

namespace Honeycomb

namespace FileFormat

/-- Reads the text of a file. -/
def decode? : FileFormat → Option (String → Except (Error Double) StructureFile)
  | xyz => some Xyz.read
  | data => some LammpsData.read
  | dump => none

/-- The text of a file with atoms and a comment. -/
def encode? : FileFormat → Option (List (Atom Double) → String → String)
  | xyz => some Xyz.write
  | data => some fun atoms comment => LammpsData.write atoms comment LammpsData.usualPadding
  | dump => none

/-- The format that is asked for, or the one that a path names. -/
def resolve (path : String) (format : Option FileFormat) : Except (Error Double) FileFormat :=
  match format with
  | some f => .ok f
  | none => ofPath path

end FileFormat

variable {m : Type → Type} [Monad m]

/-- Opens a file and reads it. -/
def readWith (files : FileAccess m) (decode : String → Except (Error Double) StructureFile)
    (path : String) : m (Except (Error Double) StructureFile) := do
  match ← files.read path with
  | some text => return decode text
  | none => return .error .file

/-- Writes a file. -/
def writeText (files : FileAccess m) (path text : String) : m (Except (Error Double) Unit) := do
  if ← files.write path text then return .ok () else return .error .file

/-- Reads a structure. -/
def readStructure (files : FileAccess m) (path : String) (format : Option FileFormat) :
    m (Except (Error Double) StructureFile) :=
  match FileFormat.resolve path format with
  | .error e => return .error e
  | .ok f =>
    match f.decode? with
    | none => return .error (.unsupportedFormat f.extension)
    | some decode => readWith files decode path

/-- Writes atoms and a comment. -/
def writeStructure (files : FileAccess m) (path : String) (atoms : List (Atom Double))
    (format : Option FileFormat) (comment : String) : m (Except (Error Double) Unit) :=
  match FileFormat.resolve path format with
  | .error e => return .error e
  | .ok f =>
    match f.encode? with
    | none => return .error (.unsupportedFormat f.extension)
    | some encode => writeText files path (encode atoms comment)

/-- Reads a structure and writes its atoms and its comment to another file. -/
def convertStructure (files : FileAccess m) (input output : String)
    (source target : Option FileFormat) : m (Except (Error Double) StructureFile) := do
  match ← readStructure files input source with
  | .error e => return .error e
  | .ok s => return (← writeStructure files output s.atoms target s.comment).map fun _ => s

end Honeycomb
