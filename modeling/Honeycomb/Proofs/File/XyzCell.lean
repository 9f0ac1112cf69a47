import Mathlib
import Honeycomb.File.Xyz
import Honeycomb.Proofs.Lists
import Honeycomb.Proofs.Outcome
import Honeycomb.Proofs.Text.Words

/-!
# The cell in a comment

* `Xyz.IsField` — the text between the quotes of the leftmost field `Lattice="…"` of a comment.
* `Xyz.IsCellText` — nine words, each a number, that are the entries of a cell row by row.
* `latticeOf?_eq_some_iff` — what is read as a cell: the numbers among the words, with whatever stands
  between them left out.
* `HasStrayWords` — nine numbers that are entries of a cell, and words that are no numbers.

Principal result: `cell_read_iff_no_strayWords` — a cell is read just off nine numbers exactly when the
field has no stray words. `exists_cell_with_stray_word` — some fields have them.
-/

set_option autoImplicit false

namespace Honeycomb.Xyz

variable {comment quoted : List Char} {l : Lattice Double}

/-- The entries of a lattice, row by row. -/
def entries (l : Lattice Double) : List Double :=
  l.matrix.rows.flatMap fun row => [row.x, row.y, row.z]

/-- The comment has a field `Lattice="…"`, of which this is the text between the quotes. It is the
leftmost one when there are several. -/
def IsField (comment quoted : List Char) : Prop :=
  ∃ before after, comment = before ++ "Lattice=\"".toList ++ (quoted ++ '"' :: after) ∧
    '"' ∉ quoted ∧ ∀ before' after', comment = before' ++ "Lattice=\"".toList ++ after' →
      before.length ≤ before'.length

/-- The text is nine numbers with blanks between them, the rows of the lattice in order. -/
def IsCellText (quoted : List Char) (l : Lattice Double) : Prop :=
  (Text.words quoted).map readDouble = (entries l).map some

/-- The numbers in the text are the rows of a lattice, but there are words that are no numbers. -/
def HasStrayWords (quoted : List Char) : Prop :=
  (∃ word ∈ Text.words quoted, readDouble word = none) ∧
    ∃ l, (Text.words quoted).filterMap readDouble = entries l

/-! ## Fields -/

/-- The text between the quotes. -/
def field? (comment : List Char) : Option (List Char) :=
  (Text.afterFirst "Lattice=\"".toList comment).bind fun rest =>
    (Text.splitAtFirst '"' rest).map (·.1)

theorem isField_iff : IsField comment quoted ↔ field? comment = some quoted := by
  rw [field?, Option.bind_eq_some_iff]
  constructor
  · rintro ⟨before, after, heq, hquoted, hleast⟩
    refine ⟨quoted ++ '"' :: after, Text.afterFirst_eq_some_iff.2 ⟨before, heq, hleast⟩, ?_⟩
    rw [Text.splitAtFirst_append_cons hquoted]
    rfl
  · rintro ⟨rest, hrest, hquoted⟩
    obtain ⟨⟨_, after⟩, hsplit, rfl⟩ := Option.map_eq_some_iff.1 hquoted
    obtain ⟨before, heq, hleast⟩ := Text.afterFirst_eq_some_iff.1 hrest
    obtain ⟨rfl, hnotMem⟩ := Text.splitAtFirst_eq_some_iff.1 hsplit
    exact ⟨before, after, heq, hnotMem, hleast⟩

/-! ## Cells -/

/-- The lattice with given entries, unless they are not nine or span no volume. -/
def ofEntries? : List Double → Option (Lattice Double)
  | [a, b, c, d, e, f, g, h, i] => (Lattice.ofVectors ⟨a, b, c⟩ ⟨d, e, f⟩ ⟨g, h, i⟩).toOption
  | _ => none

theorem ofEntries?_eq_some_iff {numbers : List Double} :
    ofEntries? numbers = some l ↔ numbers = entries l := by
  constructor
  · intro h
    unfold ofEntries? at h
    split at h
    · rw [toOption_eq_some_iff, Lattice.ofVectors, Lattice.ofMatrix] at h
      split at h
      · cases h
      · cases h
        rfl
    · cases h
  · rintro rfl
    exact toOption_eq_some_iff.2 (dif_neg l.spans)

theorem latticeOf?_eq : latticeOf? comment =
    (field? comment).bind fun quoted =>
      ofEntries? ((Text.words quoted).filterMap readDouble) := by
  rw [latticeOf?, field?]
  cases Text.afterFirst "Lattice=\"".toList comment with
  | none => rfl
  | some rest =>
    cases hsplit : Text.splitAtFirst '"' rest with
    | none => simp only [Option.bind_eq_bind, Option.bind_some, hsplit]; rfl
    | some parts => simp only [Option.bind_eq_bind, Option.bind_some, hsplit]; rfl

/-- **What is read as a cell**: the numbers among the words of the field. -/
theorem latticeOf?_eq_some_iff : latticeOf? comment = some l ↔
    ∃ quoted, IsField comment quoted ∧ (Text.words quoted).filterMap readDouble = entries l := by
  simp only [latticeOf?_eq, Option.bind_eq_some_iff, ofEntries?_eq_some_iff, isField_iff]

theorem isCellText_iff : IsCellText quoted l ↔
    (Text.words quoted).filterMap readDouble = entries l ∧
      ∀ word ∈ Text.words quoted, readDouble word ≠ none :=
  map_eq_map_some_iff

/-- **A cell is read just off nine numbers exactly when there are no stray words** among them. -/
theorem cell_read_iff_no_strayWords (comment : List Char) :
    (∀ l, latticeOf? comment = some l ↔ ∃ quoted, IsField comment quoted ∧ IsCellText quoted l) ↔
      ∀ quoted, IsField comment quoted → ¬HasStrayWords quoted := by
  constructor
  · rintro h quoted hfield ⟨⟨word, hword, hnone⟩, l, hentries⟩
    obtain ⟨quoted', hfield', hcell⟩ := (h l).1 (latticeOf?_eq_some_iff.2 ⟨quoted, hfield, hentries⟩)
    -- a comment has one field only
    obtain rfl : quoted' = quoted :=
      Option.some.inj ((isField_iff.1 hfield').symm.trans (isField_iff.1 hfield))
    exact (isCellText_iff.1 hcell).2 word hword hnone
  · intro h l
    rw [latticeOf?_eq_some_iff]
    refine exists_congr fun quoted => and_congr_right fun hfield => ?_
    rw [isCellText_iff, iff_self_and]
    intro hentries word hword hnone
    exact h quoted hfield ⟨⟨word, hword, hnone⟩, l, hentries⟩

/-- A word that is no number stands before the last entry. -/
theorem exists_cell_with_stray_word :
    ∃ l, latticeOf? "Lattice=\"2 0 0 0 3 0 0 0 x4 5\"".toList = some l ∧
      ¬∃ quoted, IsField "Lattice=\"2 0 0 0 3 0 0 0 x4 5\"".toList quoted ∧
        IsCellText quoted l := by
  obtain ⟨l, hl⟩ : ∃ l, latticeOf? "Lattice=\"2 0 0 0 3 0 0 0 x4 5\"".toList = some l :=
    Option.isSome_iff_exists.1 (by decide +kernel)
  refine ⟨l, hl, ?_⟩
  rintro ⟨quoted, hfield, hcell⟩
  have hquoted : field? "Lattice=\"2 0 0 0 3 0 0 0 x4 5\"".toList =
      some "2 0 0 0 3 0 0 0 x4 5".toList := by decide +kernel
  obtain rfl : "2 0 0 0 3 0 0 0 x4 5".toList = quoted :=
    Option.some.inj (hquoted.symm.trans (isField_iff.1 hfield))
  exact (isCellText_iff.1 hcell).2 "x4".toList (by decide +kernel) (by decide +kernel)

end Honeycomb.Xyz
