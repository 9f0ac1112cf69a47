import Mathlib
import Honeycomb.Collection.Basic
import Honeycomb.Proofs.Collection.Numbering
import Honeycomb.Proofs.File.DataText

/-!
# The types that a data file declares

The header of a data file says how many atom types there are, one section gives each type its mass
and another names the type of each atom. A file declares its types when the three agree.

* `sectionLines`, `numberAt`, `declaredTypes?` — what the text of a file says.
* `DeclaresTypes` — the atoms have types from one up to the declared number, and each type up to
  this number has one mass.
* `declaredTypes?_write`, `sectionLines_masses`, `sectionLines_atoms` — what is written: as many
  types as there are different ones, a line for each of them, and a line for each atom.
* `hasNoGaps_firstAppearance` — numbers by first appearance have no gaps, and so types that are made
  up for a file have none.

Principal result: `declaresTypes_write_iff` — a file that is written declares its types just when
some atom has no type yet or the types of the atoms have no gaps.
`exists_filter_not_declaresTypes` — a selection of atoms can leave a gap.
-/

set_option autoImplicit false

namespace Honeycomb

/-! ## Numbers without gaps -/

/-- Below each number of a list there are only numbers of the list, down to one. -/
def HasNoGaps (ts : List Nat) : Prop :=
  ∀ t ∈ ts, ∀ s, 1 ≤ s → s ≤ t → s ∈ ts

theorem hasNoGaps_firstAppearance (labels : List String) : HasNoGaps (firstAppearance labels) := by
  intro t ht s hs hst
  exact mem_firstAppearance_iff.2 ⟨hs, hst.trans (mem_firstAppearance_iff.1 ht).2⟩

/-- Different positive numbers without gaps are those up to their number. -/
theorem mem_iff_of_hasNoGaps {ts : List Nat} (hnodup : ts.Nodup) (hpos : ∀ t ∈ ts, 1 ≤ t)
    (h : HasNoGaps ts) (t : Nat) : t ∈ ts ↔ 1 ≤ t ∧ t ≤ ts.length := by
  -- the numbers up to one of them are all there, so that there are as many
  have hle : ∀ t ∈ ts, t ≤ ts.length := by
    intro t ht
    have hsubset : List.range' 1 t ⊆ ts := by
      intro s hs
      rw [List.mem_range'_1] at hs
      exact h t ht s hs.1 (by omega)
    have hcount := (List.subperm_of_subset List.nodup_range' hsubset).length_le
    rwa [List.length_range'] at hcount
  have hsubset : ts ⊆ List.range' 1 ts.length := by
    intro t ht
    have hone := hpos t ht
    have hlast := hle t ht
    rw [List.mem_range'_1]
    omega
  have hperm : ts.Perm (List.range' 1 ts.length) :=
    (List.subperm_of_subset hnodup hsubset).perm_of_length_le (by rw [List.length_range'])
  rw [hperm.mem_iff, List.mem_range'_1]
  omega

namespace LammpsData

variable {atoms : List (Atom Double)} {comment : String} {padding : Double}

theorem one_le_of_mem_typeIds {t : Nat} (h : t ∈ typeIds atoms) : 1 ≤ t := by
  unfold typeIds at h
  split at h
  case isTrue hpos =>
    rw [List.all_eq_true] at hpos
    obtain ⟨a, ha, rfl⟩ := List.mem_map.1 h
    have hone : 0 < a.type := by simpa using hpos a ha
    omega
  case isFalse => exact (bounds_of_mem_numberAfter h).1

/-- Types that are made up for a file have no gaps, and types that are kept have those of the
atoms. -/
theorem hasNoGaps_typeIds_iff : HasNoGaps (typeIds atoms) ↔ ((∀ a ∈ atoms, 0 < a.type) →
    ∀ a ∈ atoms, ∀ s, 1 ≤ s → s < a.type → ∃ b ∈ atoms, b.type = s) := by
  unfold typeIds
  split
  case isTrue hpos =>
    have hpos : ∀ a ∈ atoms, 0 < a.type := by simpa using hpos
    constructor
    · intro h _ a ha s hs hlt
      exact List.mem_map.1 (h a.type (List.mem_map_of_mem ha) s hs hlt.le)
    · intro h t ht s hs hst
      obtain ⟨a, ha, rfl⟩ := List.mem_map.1 ht
      by_cases hlast : s = a.type
      · rw [hlast]
        exact ht
      · exact List.mem_map.2 (h hpos a ha s hs (by omega))
  case isFalse hpos =>
    refine iff_of_true (hasNoGaps_firstAppearance _) fun h => absurd ?_ hpos
    simpa using h

/-! ## What a text says -/

/-- The lines of a section, from the blank line below its title to the next blank line. -/
def sectionLines (title text : String) : List (List Char) :=
  (((Text.lines text.toList).tail.dropWhile (· != title.toList)).drop 2).takeWhile (!·.isEmpty)

/-- The number at a place in a line. -/
def numberAt (i : Nat) (line : List Char) : Option Nat :=
  (Text.words line)[i]?.bind readDigits

/-- The number of types that the header declares. -/
def declaredTypes? (text : String) : Option Nat :=
  (Text.lines text.toList).tail.findSome? fun line =>
    if (Text.words line).tail = ["atom".toList, "types".toList] then numberAt 0 line else none

/-- The atoms have types from one up to the number that is declared, and each type up to this
number has one mass. -/
def DeclaresTypes (text : String) : Prop :=
  ∃ k, declaredTypes? text = some k ∧
    (∀ line ∈ sectionLines "Atoms # full" text, ∃ t, numberAt 2 line = some t ∧ 1 ≤ t ∧ t ≤ k) ∧
    ∀ t, 1 ≤ t → t ≤ k → (sectionLines "Masses" text).countP (numberAt 0 · = some t) = 1

theorem numberAt_atomRow (row : Atom Double × Nat × Nat) :
    numberAt 2 (atomRow row) = some row.2.2 := by
  rw [numberAt, atomRow, words_row isField_of_mem_atomFields]
  exact readDigits_toString row.2.2

/-- The type stands in front of its mass, whatever the remark is. -/
theorem numberAt_massRow (row : Nat × Double × String) :
    numberAt 0 (Text.dropReturn (massRow row)) = some row.1 := by
  rw [numberAt, Text.words_dropReturn, massRow, Text.words_append_cons (by decide),
    words_row isField_of_mem_massFields]
  exact readDigits_toString row.1

/-! ## Sections of the text -/

/-- The lines between a blank line below a title and the next blank line. -/
theorem takeWhile_drop_dropWhile {title : List Char} {before body after : List (List Char)}
    (hbefore : title ∉ before) (hbody : ∀ line ∈ body, line ≠ [])
    (hafter : ∀ line ∈ after.head?, line = []) :
    (((before ++ title :: [] :: (body ++ after)).dropWhile (· != title)).drop 2).takeWhile
      (!·.isEmpty) = body := by
  have hskipped : ∀ line ∈ before, (line != title) = true := by
    intro line hline
    rw [bne_iff_ne]
    rintro rfl
    exact hbefore hline
  have htaken : ∀ line ∈ body, (!line.isEmpty) = true := by
    intro line hline
    simpa using hbody line hline
  have hrest : after.takeWhile (!·.isEmpty) = [] := by
    cases after with
    | nil => rfl
    | cons line after =>
      rw [hafter line rfl]
      rfl
  rw [List.dropWhile_append_of_pos hskipped, List.dropWhile_cons_of_neg (by simp)]
  change (body ++ after).takeWhile _ = body
  rw [List.takeWhile_append_of_pos htaken, hrest, List.append_nil]

/-- A line that is blank or begins with a number. -/
def IsPlain (line : List Char) : Prop :=
  ∀ c ∈ line.head?, IsNumeralChar c

theorem isPlain_nil : IsPlain [] := by
  simp [IsPlain]

/-- A row begins with its first word. -/
theorem isPlain_row {w : List Char} (hne : w ≠ []) (h : ∀ c ∈ w, IsNumeralChar c)
    (ws : List (List Char)) : IsPlain ([' '].intercalate (w :: ws)) := by
  obtain ⟨c, w, rfl⟩ := List.exists_cons_of_ne_nil hne
  have hc : IsNumeralChar c := h c List.mem_cons_self
  cases ws with
  | nil => simpa [IsPlain] using hc
  | cons w' ws => simpa [IsPlain, List.intercalate_cons_cons] using hc

theorem isNumeralChar_of_mem_toString {n : Nat} {c : Char} (h : c ∈ (toString n).toList) :
    IsNumeralChar c :=
  .inl (isDigit_of_mem_toString h)

theorem isPlain_dropReturn {line : List Char} (h : IsPlain line) :
    IsPlain (Text.dropReturn line) := by
  rcases Text.dropReturn_eq line with hline | ⟨kept, rfl, hkept⟩
  · rwa [hline]
  · rw [hkept]
    intro c hc
    apply h c
    rw [List.head?_append, hc]
    rfl

theorem isPlain_count (n : Nat) (ws : List (List Char)) :
    IsPlain ([' '].intercalate ((toString n).toList :: ws)) :=
  isPlain_row (isField_count n).ne_nil (fun _ hc => isNumeralChar_of_mem_toString hc) ws

theorem isPlain_double (x : Double) (ws : List (List Char)) :
    IsPlain ([' '].intercalate ((fixedText 8 x).toList :: ws)) :=
  isPlain_row (isField_double (by decide) x).ne_nil
    (fun _ hc => isNumeralChar_of_mem_fixedText (by decide) hc) ws

theorem isPlain_massRow (row : Nat × Double × String) : IsPlain (massRow row) := by
  -- the hash sign and the element may be seen as further words
  have hrow : massRow row = [' '].intercalate ((toString row.1).toList ::
      [(fixedText 4 row.2.1).toList, ['#'], row.2.2.toList]) := by
    simp [massRow, massFields, List.intercalate_cons_cons]
  rw [hrow]
  exact isPlain_count _ _

/-- No line before the masses is a title. -/
theorem isPlain_of_mem_headRows {line : List Char} (h : line ∈ headRows atoms padding) :
    IsPlain line := by
  simp only [headRows, List.mem_cons, List.not_mem_nil, or_false] at h
  rcases h with rfl | rfl | rfl | rfl | rfl | rfl | rfl
  · exact isPlain_nil
  · exact isPlain_count _ _
  · exact isPlain_count _ _
  · exact isPlain_nil
  · exact isPlain_double _ _
  · exact isPlain_double _ _
  · exact isPlain_double _ _

theorem notMem_of_isPlain {title : List Char} (htitle : ¬IsPlain title) {ls : List (List Char)}
    (h : ∀ line ∈ ls, IsPlain line) : title ∉ ls :=
  fun hmem => htitle (h title hmem)

theorem not_isPlain_masses : ¬IsPlain "Masses".toList := by
  simp [IsPlain, IsNumeralChar]

theorem not_isPlain_atoms : ¬IsPlain "Atoms # full".toList := by
  simp [IsPlain, IsNumeralChar]

/-- **The section of the masses** holds a line for each row of the table. -/
theorem sectionLines_masses (h : ∀ a ∈ atoms, '\n' ∉ a.element.toList) :
    sectionLines "Masses" (write atoms comment padding) =
      ((massTable atoms).toList.map massRow).map Text.dropReturn := by
  have hbefore : "Masses".toList ∉ headRows atoms padding ++ [[]] := by
    apply notMem_of_isPlain not_isPlain_masses
    rw [List.forall_mem_append]
    exact ⟨fun line hline => isPlain_of_mem_headRows hline, by simp [isPlain_nil]⟩
  have hbody : ∀ line ∈ ((massTable atoms).toList.map massRow).map Text.dropReturn, line ≠ [] := by
    simp only [List.forall_mem_map]
    intro row _ hnil
    have hnumber := numberAt_massRow row
    rw [hnil] at hnumber
    simp [numberAt] at hnumber
  have hlines : (Text.lines (write atoms comment padding).toList).tail =
      (headRows atoms padding ++ [[]]) ++ "Masses".toList :: [] ::
        (((massTable atoms).toList.map massRow).map Text.dropReturn ++ ([] ::
          "Atoms # full".toList :: [] :: (writtenRows atoms).map atomRow ++
            velocityRows atoms)) := by
    rw [lines_write h]
    simp
  rw [sectionLines, hlines]
  exact takeWhile_drop_dropWhile hbefore hbody (by simp)

/-- **The section of the atoms** holds a line for each atom. -/
theorem sectionLines_atoms (h : ∀ a ∈ atoms, '\n' ∉ a.element.toList) :
    sectionLines "Atoms # full" (write atoms comment padding) =
      (writtenRows atoms).map atomRow := by
  have hbefore : "Atoms # full".toList ∉ headRows atoms padding ++ [[]] ++ ["Masses".toList] ++
      ([] :: ((massTable atoms).toList.map massRow).map Text.dropReturn ++ [[]]) := by
    have hmasses : "Atoms # full".toList ≠ "Masses".toList := by decide
    have hrows : "Atoms # full".toList ∉
        ((massTable atoms).toList.map massRow).map Text.dropReturn := by
      apply notMem_of_isPlain not_isPlain_atoms
      simp only [List.forall_mem_map]
      exact fun row _ => isPlain_dropReturn (isPlain_massRow row)
    have hhead : "Atoms # full".toList ∉ headRows atoms padding :=
      notMem_of_isPlain not_isPlain_atoms fun line hline => isPlain_of_mem_headRows hline
    have hblank : "Atoms # full".toList ≠ [] := by decide
    simp only [List.mem_append, List.mem_cons, List.not_mem_nil, hmasses, hrows, hhead,
      hblank, or_self, not_false_eq_true]
  have hbody : ∀ line ∈ (writtenRows atoms).map atomRow, line ≠ [] := by
    simp only [List.forall_mem_map]
    intro row _ hnil
    have hnumber := numberAt_atomRow row
    rw [hnil] at hnumber
    simp [numberAt] at hnumber
  have hafter : ∀ line ∈ (velocityRows atoms).head?, line = [] := by
    unfold velocityRows
    split <;> simp
  have hlines : (Text.lines (write atoms comment padding).toList).tail =
      (headRows atoms padding ++ [[]] ++ ["Masses".toList] ++
        ([] :: ((massTable atoms).toList.map massRow).map Text.dropReturn ++ [[]])) ++
          "Atoms # full".toList :: [] ::
            ((writtenRows atoms).map atomRow ++ velocityRows atoms) := by
    rw [lines_write h]
    simp
  rw [sectionLines, hlines]
  exact takeWhile_drop_dropWhile hbefore hbody hafter

/-- **The header** declares as many types as the table has. -/
theorem declaredTypes?_write (h : ∀ a ∈ atoms, '\n' ∉ a.element.toList) :
    declaredTypes? (write atoms comment padding) = some (massTable atoms).size := by
  have hatoms : Text.words ([' '].intercalate (countFields atoms.length ["atoms"])) =
      countFields atoms.length ["atoms"] :=
    words_row (isField_of_mem_countFields isField_atoms)
  have htypes : Text.words
      ([' '].intercalate (countFields (massTable atoms).size ["atom", "types"])) =
        countFields (massTable atoms).size ["atom", "types"] :=
    words_row (isField_of_mem_countFields isField_atomTypes)
  have hnumber : numberAt 0 ([' '].intercalate
      (countFields (massTable atoms).size ["atom", "types"])) = some (massTable atoms).size := by
    rw [numberAt, htypes]
    exact readDigits_toString _
  -- the first line is blank, the second one counts the atoms
  have hfirst : (Text.words []).tail ≠ ["atom".toList, "types".toList] := by
    rw [Text.words_nil]
    decide
  have hsecond : (countFields atoms.length ["atoms"]).tail ≠ ["atom".toList, "types".toList] := by
    rw [countFields, List.tail_cons]
    decide
  have hthird : (countFields (massTable atoms).size ["atom", "types"]).tail =
      ["atom".toList, "types".toList] := rfl
  rw [declaredTypes?, lines_write h, List.tail_cons]
  simp only [headRows, List.cons_append, List.findSome?_cons, hatoms, htypes, if_neg hfirst,
    if_neg hsecond, if_pos hthird, hnumber]

/-! ## Agreement -/

/-- As many masses are written for a type as the table has rows for it. -/
theorem countP_masses (h : ∀ a ∈ atoms, '\n' ∉ a.element.toList) (t : Nat) :
    (sectionLines "Masses" (write atoms comment padding)).countP (numberAt 0 · = some t) =
      (massTable atoms).keys.count t := by
  rw [sectionLines_masses h, List.countP_map, List.countP_map, ← Std.TreeMap.map_fst_toList_eq_keys,
    List.count, List.countP_map]
  apply List.countP_congr
  intro row _
  simp [numberAt_massRow]

theorem declaresTypes_write (h : ∀ a ∈ atoms, '\n' ∉ a.element.toList) :
    DeclaresTypes (write atoms comment padding) ↔ HasNoGaps (typeIds atoms) := by
  have hkeys : ∀ t, t ∈ (massTable atoms).keys ↔ t ∈ typeIds atoms := by
    intro t
    rw [Std.TreeMap.mem_keys, mem_massTable_iff]
  have hsize : (massTable atoms).keys.length = (massTable atoms).size := Std.TreeMap.length_keys
  have hnodup : (massTable atoms).keys.Nodup := Std.TreeMap.nodup_keys
  have hpos : ∀ t ∈ (massTable atoms).keys, 1 ≤ t :=
    fun t ht => one_le_of_mem_typeIds ((hkeys t).1 ht)
  have hatoms : ∀ P : Nat → Prop,
      (∀ line ∈ sectionLines "Atoms # full" (write atoms comment padding),
        ∃ t, numberAt 2 line = some t ∧ P t) ↔ ∀ t ∈ typeIds atoms, P t := by
    intro P
    rw [sectionLines_atoms h]
    conv_rhs => rw [← (columns_writtenRows atoms).2.2]
    simp only [List.forall_mem_map, numberAt_atomRow, Option.some.injEq, exists_eq_left']
  unfold DeclaresTypes
  simp only [declaredTypes?_write h, countP_masses h, hatoms, Option.some.injEq, exists_eq_left']
  constructor
  · rintro ⟨htypes, hmasses⟩ t ht s hs hst
    have hone : (massTable atoms).keys.count s = 1 := hmasses s hs (hst.trans (htypes t ht).2)
    rw [← hkeys, ← List.count_pos_iff, hone]
    exact Nat.one_pos
  · intro hgaps
    have hmem := mem_iff_of_hasNoGaps hnodup hpos fun t ht s hs hst =>
      (hkeys s).2 (hgaps t ((hkeys t).1 ht) s hs hst)
    rw [hsize] at hmem
    constructor
    · intro t ht
      exact (hmem t).1 ((hkeys t).2 ht)
    · intro t hone ht
      exact List.count_eq_one_of_mem hnodup ((hmem t).2 ⟨hone, ht⟩)

/-- **A file declares its types just when some atom has no type yet, so that all types are made up
for the file, or the types of the atoms have no gaps.** No element has a line feed in it, which
would end its line. -/
theorem declaresTypes_write_iff (h : ∀ a ∈ atoms, '\n' ∉ a.element.toList) (comment : String)
    (padding : Double) : DeclaresTypes (write atoms comment padding) ↔
      ((∀ a ∈ atoms, 0 < a.type) →
        ∀ a ∈ atoms, ∀ s, 1 ≤ s → s < a.type → ∃ b ∈ atoms, b.type = s) := by
  rw [declaresTypes_write h, hasNoGaps_typeIds_iff]

/-- An atom of carbon and one of nitrogen, each with a type of its own. -/
def carbonNitride : Collection Double :=
  ⟨[{ Atom.placed "C" ⟨0, 0, 0⟩ with id := 1, type := 1 },
    { Atom.placed "N" ⟨1.5, 0, 0⟩ with id := 2, type := 2 }], {}, none, 0⟩

/-- The atoms of both types declare them. -/
theorem declaresTypes_write_iff_both :
    DeclaresTypes (write carbonNitride.atoms "both" usualPadding) := by
  have helements : ∀ a ∈ carbonNitride.atoms, '\n' ∉ a.element.toList := by decide
  refine (declaresTypes_write_iff helements "both" usualPadding).2 ?_
  decide

/-- **A selection can leave a gap.** Of two atoms whose types are declared the second one is kept,
and its type is not. -/
theorem exists_filter_not_declaresTypes :
    DeclaresTypes (write carbonNitride.atoms "kept" usualPadding) ∧
      ¬DeclaresTypes (write (carbonNitride.filter [2] false 0).1.atoms "kept" usualPadding) := by
  have hboth : ∀ a ∈ carbonNitride.atoms, '\n' ∉ a.element.toList := by decide
  have hkept : ∀ a ∈ (carbonNitride.filter [2] false 0).1.atoms, '\n' ∉ a.element.toList := by
    decide
  rw [declaresTypes_write hboth, declaresTypes_write hkept, hasNoGaps_typeIds_iff,
    hasNoGaps_typeIds_iff]
  decide

end LammpsData

end Honeycomb
