import Honeycomb.Text.Words

/-!
# Paths

Paths are texts in which slashes separate names.

* `Path.fileName?` — the last name, slashes and single dots behind it left out.
* `Path.extension?` — what follows the last dot of that name.
* `Path.join` — a path inside a directory.
-/

set_option autoImplicit false

namespace Honeycomb.Path

/-- The names of a path. A single dot stands for nothing, except in front. -/
def names (path : List Char) : List (List Char) :=
  match Text.cut (· == '/') path with
  | [] => []
  | first :: rest =>
    let isName (part : List Char) : Bool := !part.isEmpty && part != ['.']
    if first.isEmpty then rest.filter isName else first :: rest.filter isName

/-- The last name of a path, unless it is a dot or two. -/
def fileName? (path : String) : Option (List Char) :=
  (names path.toList).getLast?.filter fun name => name != ['.'] && name != ['.', '.']

/-- What stands before and after the last dot of a name. -/
def splitAtLastDot (name : List Char) : Option (List Char × List Char) :=
  match name.reverse.dropWhile (· != '.') with
  | [] => none
  | _ :: stem => some (stem.reverse, (name.reverse.takeWhile (· != '.')).reverse)

/-- The extension of a path. A name that only starts with a dot has none. -/
def extension? (path : String) : Option String := do
  let name ← fileName? path
  let (stem, extension) ← splitAtLastDot name
  if stem.isEmpty then none else some (String.ofList extension)

/-- A path seen from a directory; one that starts with a slash stays as it is. -/
def join (directory path : String) : String :=
  if path.toList.head? = some '/' then path
  else if directory.isEmpty || directory.toList.getLast? = some '/' then directory ++ path
  else directory ++ "/" ++ path

end Honeycomb.Path
