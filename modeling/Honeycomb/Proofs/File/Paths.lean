import Honeycomb.Proofs.File.Access
import Honeycomb.Proofs.Outcome
import Honeycomb.Proofs.Text.Words

/-!
# The last name of a path

* `Path.parts` — the pieces of a path that stand for something; `Path.fileName?_eq` — the file name
  is the last of them, unless it leads out of a directory.
* `Path.EndsInName` — a text behind which an extension makes up a file name.
* `FileFormat.IsNamedBy` — the format that the extension of a path stands for.

Principal results: `FileFormat.IsNamedBy.join`, a path names the same format in any directory, and
`FileFormat.isNamedBy_outputPath`, the path of a file that is named for a format names it.
-/

set_option autoImplicit false

namespace Honeycomb

namespace Path

/-- The pieces of a path, empty ones and single dots left out. -/
def parts (path : List Char) : List (List Char) :=
  (Text.cut (· == '/') path).filter fun part => !part.isEmpty && part != ['.']

theorem parts_append_slash (p n : List Char) : parts (p ++ '/' :: n) = parts p ++ parts n := by
  unfold parts
  rw [Text.cut_append_cons (by decide), List.filter_append]

theorem dot_notMem_parts (path : List Char) : ['.'] ∉ parts path := by
  intro h
  have hpart := List.of_mem_filter h
  cases hpart

theorem filter_getLast?_of_notMem {ps : List (List Char)} (h : ['.'] ∉ ps) :
    (ps.getLast?.filter fun name => name != ['.'] && name != ['.', '.']) =
      ps.getLast?.filter (· != ['.', '.']) := by
  cases hlast : ps.getLast? with
  | none => rfl
  | some name =>
    have hname : name ≠ ['.'] := by
      rintro rfl
      exact h (List.mem_of_getLast? hlast)
    simp [Option.filter, hname]

/-- The file name is the last part, unless that leads out of a directory. -/
theorem fileName?_eq (path : String) :
    fileName? path = (parts path.toList).getLast?.filter (· != ['.', '.']) := by
  have hparts := dot_notMem_parts path.toList
  unfold fileName? names
  unfold parts at hparts ⊢
  cases hcut : Text.cut (· == '/') path.toList with
  | nil => rfl
  | cons first rest =>
    rw [hcut, List.filter_cons] at hparts
    rw [List.filter_cons]
    dsimp only
    cases hempty : first.isEmpty with
    | true =>
      simp only [hempty] at hparts ⊢
      exact filter_getLast?_of_notMem hparts
    | false =>
      by_cases hdot : first = ['.']
      · -- a dot in front is a name of the path, but none of a file
        subst hdot
        simp only [List.isEmpty_cons] at hparts ⊢
        cases hrest : rest.filter fun part => !part.isEmpty && part != ['.'] with
        | nil => rfl
        | cons second others =>
          rw [hrest] at hparts
          show Option.filter _ (['.'] :: second :: others).getLast? = _
          rw [List.getLast?_cons_cons]
          exact filter_getLast?_of_notMem hparts
      · have hname : (!first.isEmpty && first != ['.']) = true := by simp [hempty, hdot]
        rw [hempty] at hname
        simp only [hempty, hname] at hparts ⊢
        exact filter_getLast?_of_notMem hparts

theorem fileName?_append_slash {n : String} {name : List Char} (h : fileName? n = some name)
    (p : String) : fileName? (p ++ "/" ++ n) = some name := by
  rw [fileName?_eq, Option.filter_eq_some_iff] at h ⊢
  obtain ⟨hlast, hname⟩ := h
  refine ⟨?_, hname⟩
  have htext : (p ++ "/" ++ n).toList = p.toList ++ '/' :: n.toList := by simp
  rw [htext, parts_append_slash, List.getLast?_append, hlast]
  rfl

theorem join_cases (directory path : String) :
    join directory path = path ∨ ∃ p, join directory path = p ++ "/" ++ path := by
  unfold join
  split
  case isTrue => exact .inl rfl
  case isFalse =>
    split
    case isTrue h =>
      rw [Bool.or_eq_true, decide_eq_true_eq] at h
      rcases h with hempty | hslash
      · left
        rw [String.isEmpty_iff.1 hempty]
        exact String.empty_append
      · right
        obtain ⟨p, hp⟩ := List.getLast?_eq_some_iff.1 hslash
        refine ⟨String.ofList p, ?_⟩
        have hdirectory : directory = String.ofList p ++ "/" := by
          apply String.toList_injective
          simp [hp]
        rw [hdirectory]
    case isFalse => exact .inr ⟨directory, rfl⟩

/-- **A path has the same extension in any directory.** -/
theorem extension?_join {path extension : String} (h : extension? path = some extension)
    (directory : String) : extension? (join directory path) = some extension := by
  rcases join_cases directory path with hjoin | ⟨p, hjoin⟩
  · rw [hjoin, h]
  · rw [hjoin]
    unfold extension? at h ⊢
    cases hname : fileName? path with
    | none => simp [hname] at h
    | some name =>
      rw [fileName?_append_slash hname]
      rwa [hname] at h

/-- The last dot of a name is the one in front of a text without dots. -/
theorem splitAtLastDot_append {extension : List Char} (h : '.' ∉ extension) (stem : List Char) :
    splitAtLastDot (stem ++ '.' :: extension) = some (stem, extension) := by
  have hdots : ∀ c ∈ extension.reverse, (c != '.') = true :=
    Text.bne_of_notMem (by simpa using h)
  unfold splitAtLastDot
  rw [List.reverse_append, List.reverse_cons, List.append_assoc, List.singleton_append,
    List.dropWhile_append_of_pos hdots, List.takeWhile_append_of_pos hdots]
  simp

/-- The text ends in a name: there is a last character, and it is no slash. -/
def EndsInName (s : String) : Prop :=
  ∃ c, s.toList.getLast? = some c ∧ c ≠ '/'

theorem EndsInName.append {t : String} (h : EndsInName t) (s : String) : EndsInName (s ++ t) := by
  obtain ⟨c, hlast, hc⟩ := h
  refine ⟨c, ?_, hc⟩
  rw [String.toList_append, List.getLast?_append, hlast]
  rfl

/-- What stands behind the last slash of a text that ends in a name. -/
theorem EndsInName.exists_last {s : String} (h : EndsInName s) :
    ∃ last, last ≠ [] ∧ '/' ∉ last ∧
      (s.toList = last ∨ ∃ p, s.toList = p ++ '/' :: last) := by
  obtain ⟨c, hlast, hc⟩ := h
  by_cases hslash : '/' ∈ s.toList
  · obtain ⟨rest, p, hreverse, hrest⟩ :=
      List.eq_append_cons_of_mem (List.mem_reverse.2 hslash)
    have htext : s.toList = p.reverse ++ '/' :: rest.reverse := by
      rw [← List.reverse_reverse s.toList, hreverse]
      simp
    refine ⟨rest.reverse, ?_, by simpa using hrest, .inr ⟨p.reverse, htext⟩⟩
    intro hnil
    rw [htext, hnil, List.getLast?_append] at hlast
    exact hc (Option.some.inj hlast).symm
  · refine ⟨s.toList, ?_, hslash, .inl rfl⟩
    intro hnil
    rw [hnil] at hlast
    cases hlast

/-- A name with an extension behind it has this extension. -/
theorem extension?_of_last {path extension : String} {last : List Char} (hlast : last ≠ [])
    (hname : '/' ∉ last) (hslash : '/' ∉ extension.toList) (hdot : '.' ∉ extension.toList)
    (hextension : extension.toList ≠ [])
    (hpath : path.toList = last ++ '.' :: extension.toList ∨
      ∃ p, path.toList = p ++ '/' :: (last ++ '.' :: extension.toList)) :
    extension? path = some extension := by
  have hparts : parts (last ++ '.' :: extension.toList) = [last ++ '.' :: extension.toList] := by
    unfold parts
    rw [Text.cut_of_unmarked]
    · simp [hlast, List.append_eq_cons_iff]
    · intro c hc
      rw [beq_eq_false_iff_ne]
      rintro rfl
      simp [hname, hslash] at hc
  have hfile : fileName? path = some (last ++ '.' :: extension.toList) := by
    have hup : last ++ '.' :: extension.toList ≠ ['.', '.'] := by
      intro h
      have hlength := congrArg List.length h
      have hlast' := List.length_pos_iff.2 hlast
      have hextension' := List.length_pos_iff.2 hextension
      simp only [List.length_append, List.length_cons, List.length_nil] at hlength
      omega
    rw [fileName?_eq, Option.filter_eq_some_iff]
    refine ⟨?_, by simpa using hup⟩
    rcases hpath with hpath | ⟨p, hpath⟩
    · rw [hpath, hparts]
      rfl
    · rw [hpath, parts_append_slash, hparts, List.getLast?_append]
      rfl
  unfold extension?
  rw [hfile]
  simp [splitAtLastDot_append hdot, hlast]

end Path

namespace FileFormat

/-- The extension of a path stands for a format. -/
def IsNamedBy (f : FileFormat) (path : String) : Prop :=
  (ofPath path : Except (Error Double) FileFormat) = .ok f

variable {f g : FileFormat} {path stem : String}

theorem isNamedBy_iff :
    f.IsNamedBy path ↔ (ofPath path : Except (Error Double) FileFormat).toOption = some f :=
  toOption_eq_some_iff.symm

instance (f : FileFormat) (path : String) : Decidable (f.IsNamedBy path) :=
  decidable_of_iff _ isNamedBy_iff.symm

theorem IsNamedBy.eq (hf : f.IsNamedBy path) (hg : g.IsNamedBy path) : f = g :=
  Except.ok.inj (hf.symm.trans hg)

/-- **A path names the same format in any directory.** -/
theorem IsNamedBy.join (h : f.IsNamedBy path) (directory : String) :
    f.IsNamedBy (Path.join directory path) := by
  unfold IsNamedBy ofPath at h ⊢
  cases hextension : Path.extension? path with
  | none => simp [hextension] at h
  | some extension =>
    rw [Path.extension?_join hextension]
    rwa [hextension] at h

/-- **The path of a file that is named for a format names it.** -/
theorem isNamedBy_outputPath (h : Path.EndsInName stem) (directory : Option String)
    (f : FileFormat) : f.IsNamedBy (outputPath stem directory f) := by
  have hextension : Path.extension? (stem ++ "." ++ f.extension) = some f.extension := by
    obtain ⟨last, hlast, hname, hstem⟩ := h.exists_last
    have hf : '/' ∉ f.extension.toList ∧ '.' ∉ f.extension.toList ∧ f.extension.toList ≠ [] := by
      cases f <;> decide
    apply Path.extension?_of_last hlast hname hf.1 hf.2.1 hf.2.2
    rcases hstem with hstem | ⟨p, hstem⟩
    · left
      simp [hstem]
    · right
      exact ⟨p, by simp [hstem]⟩
  have hname : f.IsNamedBy (stem ++ "." ++ f.extension) := resolve_of_extension hextension
  cases directory with
  | none => exact hname
  | some d => exact hname.join d

end FileFormat

end Honeycomb
