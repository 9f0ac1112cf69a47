import Honeycomb.File.Path

/-!
# Files

* `FileAccess` — how a program reads and writes whole files; both can fail.
* `FileTree` — files in memory, in directories that are there from the start.
* `FileTree.access` — reading and writing in such a tree.
-/

set_option autoImplicit false

namespace Honeycomb

/-- How whole files are read and written. Reading gives nothing, and writing says so, when the
file cannot be opened. -/
structure FileAccess (m : Type → Type) where
  read : String → m (Option String)
  write : String → String → m Bool

/-- Names from the root of a tree. -/
abbrev Location := List String

/-- Files and directories in memory. The root is always a directory. -/
structure FileTree where
  directories : List Location := []
  files : List (Location × String) := []
deriving Repr, DecidableEq

namespace FileTree

/-- The directory that is reached from another one by a list of names. -/
def walk (tree : FileTree) (at_ : Location) : List (List Char) → Option Location
  | [] => some at_
  | name :: names =>
    if name.isEmpty || name == ['.'] then walk tree at_ names
    else if name == ['.', '.'] then
      if at_.isEmpty then none else walk tree at_.dropLast names
    else
      let next := at_ ++ [String.ofList name]
      if tree.directories.contains next then walk tree next names else none

/-- A name that a file can have: not empty, not a dot or two, and of at most 255 bytes. -/
def isFileName (name : List Char) : Bool :=
  !name.isEmpty && name != ['.'] && name != ['.', '.'] && (String.ofList name).utf8ByteSize ≤ 255

/-- The place that a path names: a file name in a directory of the tree. -/
def locate (tree : FileTree) (path : String) : Option Location :=
  if path.contains '\x00' || 4096 ≤ path.utf8ByteSize || path.toList.head? = some '/' then none
  else
    match (Text.cut (· == '/') path.toList).reverse with
    | [] => none
    | name :: above => do
      let directory ← tree.walk [] above.reverse
      let place := directory ++ [String.ofList name]
      if isFileName name && !tree.directories.contains place then some place else none

/-- The text of the file at a path. -/
def read? (tree : FileTree) (path : String) : Option String := do
  tree.files.lookup (← tree.locate path)

/-- The tree with a file at a path; a file that was there is replaced. -/
def write? (tree : FileTree) (path text : String) : Option FileTree := do
  let place ← tree.locate path
  return { tree with files := (place, text) :: tree.files.filter (·.1 != place) }

/-- Where a path leads depends on the directories alone. -/
theorem locate_congr {t u : FileTree} (h : t.directories = u.directories) (path : String) :
    t.locate path = u.locate path := by
  have hwalk : ∀ (names : List (List Char)) (at_ : Location),
      t.walk at_ names = u.walk at_ names := by
    intro names
    induction names with
    | nil => exact fun _ => rfl
    | cons name names ih => intro at_; simp only [walk, ih, h]
  simp only [locate, hwalk, h]

/-- A file that was written is read back. -/
theorem read?_write? {tree next : FileTree} {path text : String}
    (h : tree.write? path text = some next) : next.read? path = some text := by
  simp only [write?, Option.pure_def, Option.bind_eq_bind, Option.bind_eq_some_iff,
    Option.some.injEq] at h
  obtain ⟨place, hplace, rfl⟩ := h
  simp only [read?, Option.bind_eq_bind, Option.bind_eq_some_iff]
  refine ⟨place, ?_, by simp⟩
  rw [← hplace]
  apply locate_congr
  rfl

/-- Reading and writing in a tree. -/
def access : FileAccess (StateM FileTree) where
  read path := return (← get).read? path
  write path text := do
    match (← get).write? path text with
    | some tree => set tree; return true
    | none => return false

end FileTree

end Honeycomb
