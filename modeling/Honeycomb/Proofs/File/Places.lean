import Honeycomb.Proofs.File.Paths

/-!
# Places of files

* `FileTree.read?_write?_of_ne` — a file at another place stays as it is.
* `FileTree.getLast?_of_locate` — a file has the last name of its path.
* `getLast?_cut_outputPath` — which name this is for a stem and a format.

Principal result: `stem_eq_of_locate`, files that are named for different stems are at different
places, whatever their directories and their formats.
-/

set_option autoImplicit false

namespace Honeycomb

namespace FileTree

variable {tree next : FileTree} {path other text : String} {place : Location}

theorem lookup_cons_of_ne {files : List (Location × String)} {at_ : Location} (h : at_ ≠ place) :
    ((place, text) :: files).lookup at_ = files.lookup at_ := by
  rw [List.lookup_cons, beq_eq_false_iff_ne.2 h]

theorem lookup_filter_of_ne {files : List (Location × String)} {at_ : Location} (h : at_ ≠ place) :
    (files.filter (·.1 != place)).lookup at_ = files.lookup at_ := by
  induction files with
  | nil => rfl
  | cons file rest ih =>
    obtain ⟨key, text⟩ := file
    by_cases hkey : key = place
    · subst hkey
      rw [lookup_cons_of_ne h, ← ih]
      simp
    · have hkept : ((key, text) :: rest).filter (·.1 != place) =
          (key, text) :: rest.filter (·.1 != place) := by simp [hkey]
      rw [hkept, List.lookup_cons, List.lookup_cons, ih]

/-- A file at another place stays as it is. -/
theorem read?_write?_of_ne (h : tree.write? path text = some next)
    (hne : ∀ place, tree.locate path = some place → tree.locate other ≠ some place) :
    next.read? other = tree.read? other := by
  simp only [write?, Option.pure_def, Option.bind_eq_bind, Option.bind_eq_some_iff,
    Option.some.injEq] at h
  obtain ⟨place, hplace, rfl⟩ := h
  have hlocate : locate
      { tree with files := (place, text) :: tree.files.filter (·.1 != place) } other =
        tree.locate other := by
    apply locate_congr
    rfl
  unfold read?
  rw [hlocate]
  cases hother : tree.locate other with
  | none => rfl
  | some at_ =>
    have hat : at_ ≠ place := by
      rintro rfl
      exact hne at_ hplace hother
    exact (lookup_cons_of_ne hat).trans (lookup_filter_of_ne hat)

/-- A file has the last name of its path. -/
theorem getLast?_of_locate (h : tree.locate path = some place) :
    place.getLast? = (Text.cut (· == '/') path.toList).getLast?.map String.ofList := by
  unfold locate at h
  split at h
  · cases h
  · rw [← List.head?_reverse (l := Text.cut (· == '/') path.toList)]
    split at h
    · cases h
    · rename_i name above hcut
      obtain ⟨directory, -, hplace⟩ := Option.bind_eq_some_iff.1 h
      rw [hcut]
      dsimp only at hplace
      split at hplace
      · obtain rfl := Option.some.inj hplace
        simp
      · cases hplace

end FileTree

/-- The last name of a path for a stem. -/
theorem getLast?_cut_outputPath {stem : String} (h : '/' ∉ stem.toList) (directory : Option String)
    (f : FileFormat) : (Text.cut (· == '/') (outputPath stem directory f).toList).getLast? =
      some (stem ++ "." ++ f.extension).toList := by
  have hname : Text.cut (· == '/') (stem ++ "." ++ f.extension).toList =
      [(stem ++ "." ++ f.extension).toList] := by
    apply Text.cut_of_unmarked
    intro c hc
    rw [beq_eq_false_iff_ne]
    rintro rfl
    have hextension : '/' ∉ f.extension.toList := by cases f <;> decide
    simp [h, hextension] at hc
  cases directory with
  | none =>
    rw [outputPath, hname]
    rfl
  | some d =>
    rw [outputPath]
    rcases Path.join_cases d (stem ++ "." ++ f.extension) with hjoin | ⟨p, hjoin⟩
    · rw [hjoin, hname]
      rfl
    · rw [hjoin, String.toList_append, String.toList_append, List.append_assoc,
        show "/".toList = ['/'] from rfl, List.singleton_append, Text.cut_append_cons (by decide),
        hname, List.getLast?_append]
      rfl

theorem stem_eq_of_name {stem stem' extension extension' : String} (h : '.' ∉ stem.toList)
    (h' : '.' ∉ stem'.toList) (hname : stem ++ "." ++ extension = stem' ++ "." ++ extension') :
    stem = stem' := by
  have htext := congrArg String.toList hname
  simp only [String.toList_append, List.append_assoc] at htext
  exact String.toList_injective ((Text.append_mark_inj h h').1 htext).1

section

variable {stem stem' : String} {directory directory' : Option String} {f f' : FileFormat}

theorem stem_eq_of_outputPath (hslash : '/' ∉ stem.toList) (hslash' : '/' ∉ stem'.toList)
    (hdot : '.' ∉ stem.toList) (hdot' : '.' ∉ stem'.toList)
    (h : outputPath stem directory f = outputPath stem' directory' f') : stem = stem' := by
  have hlast := getLast?_cut_outputPath hslash directory f
  rw [h, getLast?_cut_outputPath hslash', Option.some.injEq] at hlast
  exact stem_eq_of_name hdot hdot' (String.toList_injective hlast).symm

/-- **One place belongs to one stem**, if the stems have no slashes and no dots. -/
theorem stem_eq_of_locate {tree : FileTree} {place : Location} (hslash : '/' ∉ stem.toList)
    (hslash' : '/' ∉ stem'.toList) (hdot : '.' ∉ stem.toList) (hdot' : '.' ∉ stem'.toList)
    (h : tree.locate (outputPath stem directory f) = some place)
    (h' : tree.locate (outputPath stem' directory' f') = some place) : stem = stem' := by
  have hlast := FileTree.getLast?_of_locate h
  rw [FileTree.getLast?_of_locate h', getLast?_cut_outputPath hslash,
    getLast?_cut_outputPath hslash'] at hlast
  have hname : stem ++ "." ++ f.extension = stem' ++ "." ++ f'.extension := by
    simpa [String.append_assoc] using hlast.symm
  exact stem_eq_of_name hdot hdot' hname

end

end Honeycomb
