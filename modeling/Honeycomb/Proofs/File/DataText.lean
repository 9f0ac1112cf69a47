import Mathlib
import Honeycomb.File.LammpsData
import Honeycomb.Proofs.Number.Decimal
import Honeycomb.Proofs.Tables

/-!
# The text of a LAMMPS data file

The lines of a data file as words.

* `LammpsData.IsField` — a word without a hash sign. Counts and doubles are written as fields.
  `LammpsData.IsLabel` — a text that can stand behind a hash sign.
* `countFields`, `edgeFields`, `massFields`, `atomFields`, `velocityFields` — the fields of the
  lines; `headRows`, `massRow`, `atomRow`, `velocityRow` — the lines themselves.
* `writtenRows` — the atoms with the ids and the types that are written for them.
* `getElem?_massTable`, `mem_massTable_iff` — the table of the types: mass and element of the first
  atom of each type that is written.

Principal result: `lines_write` — the lines of the text are the lines that were written, less the
carriage returns at their ends.
-/

set_option autoImplicit false

namespace Honeycomb.LammpsData

variable {atoms : List (Atom Double)} {comment : String} {padding : Double}

/-! ## Words -/

/-- A word without a hash sign. -/
structure IsField (w : List Char) : Prop extends Text.IsWord w where
  hash_notMem : '#' ∉ w

theorem isField_count (n : Nat) : IsField (toString n).toList where
  toIsWord := isWord_toString n
  hash_notMem h := ne_of_isDigit (isDigit_of_mem_toString h) (by decide) rfl

theorem isField_double {places : Nat} (hplaces : 0 < places) (x : Double) :
    IsField (fixedText places x).toList where
  toIsWord := isWord_fixedText hplaces x
  hash_notMem h := (isNumeralChar_of_mem_fixedText hplaces h).ne_hash rfl

/-- A text of visible characters of ASCII is a field unless it has a hash sign in it. -/
theorem isField_of_visible {w : List Char} (hne : w ≠ [])
    (h : ∀ c ∈ w, 32 < c.toNat ∧ c.toNat < 127 ∧ c ≠ '#') : IsField w where
  ne_nil := hne
  isBlank_eq_false c hc := isBlank_of_visible (h c hc).1 (h c hc).2.1
  hash_notMem hhash := (h '#' hhash).2.2 rfl

/-- A text that can stand behind a hash sign at the end of a line. -/
structure IsLabel (label : String) : Prop where
  ne_nil : label.toList ≠ []
  trimmed : Text.trim label.toList = label.toList
  feed_notMem : '\n' ∉ label.toList

theorem isLabel_of_isWord {label : String} (h : Text.IsWord label.toList) : IsLabel label :=
  ⟨h.ne_nil, h.trim_eq, h.notMem_of_isBlank (by decide)⟩

theorem words_row {ws : List (List Char)} (h : ∀ w ∈ ws, IsField w) :
    Text.words ([' '].intercalate ws) = ws :=
  Text.words_intercalate fun w hw => (h w hw).toIsWord

theorem hash_notMem_row {ws : List (List Char)} (h : ∀ w ∈ ws, IsField w) :
    '#' ∉ [' '].intercalate ws :=
  Text.notMem_intercalate (by decide) fun w hw => (h w hw).hash_notMem

theorem feed_notMem_row {ws : List (List Char)} (h : ∀ w ∈ ws, IsField w) :
    '\n' ∉ [' '].intercalate ws := by
  refine Text.notMem_intercalate (by decide) fun w hw hfeed => ?_
  have hblank := (h w hw).isBlank_eq_false '\n' hfeed
  revert hblank
  decide

/-! ## Rows -/

/-- The fields of a mass, with the remark left out. -/
def massFields (t : Nat) (mass : Double) : List (List Char) :=
  [(toString t).toList, (fixedText 4 mass).toList]

/-- The fields of an atom. -/
def atomFields (a : Atom Double) (id t : Nat) : List (List Char) :=
  [(toString id).toList, (toString a.molecule).toList, (toString t).toList,
    (fixedText 6 a.charge).toList, (fixedText 8 a.position.x).toList,
    (fixedText 8 a.position.y).toList, (fixedText 8 a.position.z).toList]

/-- The fields of a velocity. -/
def velocityFields (a : Atom Double) (id : Nat) : List (List Char) :=
  [(toString id).toList, (fixedText 8 a.velocity.x).toList, (fixedText 8 a.velocity.y).toList,
    (fixedText 8 a.velocity.z).toList]

/-- The fields of a number of things. -/
def countFields (n : Nat) (what : List String) : List (List Char) :=
  (toString n).toList :: what.map String.toList

/-- The fields of a box edge. -/
def edgeFields (box : Cuboid Double) (axis : Axis) : List (List Char) :=
  [(fixedText 8 (box.low.along axis)).toList, (fixedText 8 (box.high.along axis)).toList,
    (axis.name ++ "lo").toList, (axis.name ++ "hi").toList]

theorem isField_of_mem_countFields {n : Nat} {what : List String}
    (h : ∀ s ∈ what, IsField s.toList) : ∀ w ∈ countFields n what, IsField w := by
  simp only [countFields, List.forall_mem_cons, List.forall_mem_map]
  exact ⟨isField_count n, h⟩

theorem isField_of_mem_edgeFields {box : Cuboid Double} {axis : Axis} :
    ∀ w ∈ edgeFields box axis, IsField w := by
  have hlow : IsField (axis.name ++ "lo").toList := by
    cases axis <;> exact isField_of_visible (by simp [Axis.name]) (by simp [Axis.name])
  have hhigh : IsField (axis.name ++ "hi").toList := by
    cases axis <;> exact isField_of_visible (by simp [Axis.name]) (by simp [Axis.name])
  simp only [edgeFields, List.forall_mem_cons]
  exact ⟨isField_double (by decide) _, isField_double (by decide) _, hlow, hhigh, by simp⟩

theorem isField_atoms : ∀ s ∈ ["atoms"], IsField s.toList := by
  simp only [List.forall_mem_cons]
  exact ⟨isField_of_visible (by simp) (by simp), by simp⟩

theorem isField_atomTypes : ∀ s ∈ ["atom", "types"], IsField s.toList := by
  simp only [List.forall_mem_cons]
  exact ⟨isField_of_visible (by simp) (by simp), isField_of_visible (by simp) (by simp), by simp⟩

theorem isField_of_mem_massFields {t : Nat} {mass : Double} :
    ∀ w ∈ massFields t mass, IsField w := by
  simp only [massFields, List.forall_mem_cons]
  exact ⟨isField_count t, isField_double (by decide) mass, by simp⟩

theorem isField_of_mem_atomFields {a : Atom Double} {id t : Nat} :
    ∀ w ∈ atomFields a id t, IsField w := by
  simp only [atomFields, List.forall_mem_cons]
  exact ⟨isField_count id, isField_count a.molecule, isField_count t,
    isField_double (by decide) _, isField_double (by decide) _, isField_double (by decide) _,
    isField_double (by decide) _, by simp⟩

theorem isField_of_mem_velocityFields {a : Atom Double} {id : Nat} :
    ∀ w ∈ velocityFields a id, IsField w := by
  simp only [velocityFields, List.forall_mem_cons]
  exact ⟨isField_count id, isField_double (by decide) _, isField_double (by decide) _,
    isField_double (by decide) _, by simp⟩

/-! ## Ids and types -/

/-- Numbers by first appearance begin at one and do not exceed the number of the labels. -/
theorem bounds_of_mem_numberAfter {seen labels : List String} {t : Nat}
    (h : t ∈ numberAfter seen labels) : 1 ≤ t ∧ t ≤ seen.length + labels.length := by
  induction labels generalizing seen with
  | nil => simp [numberAfter] at h
  | cons label rest ih =>
    unfold numberAfter at h
    rw [List.length_cons]
    split at h
    case h_1 k hk =>
      obtain ⟨hknown, -⟩ := List.findIdx?_eq_some_iff_getElem.1 hk
      rcases List.mem_cons.1 h with rfl | h
      · omega
      · have hbounds := ih h
        omega
    case h_2 =>
      rcases List.mem_cons.1 h with rfl | h
      · omega
      · have hbounds := ih h
        rw [List.length_append, List.length_singleton] at hbounds
        omega

theorem length_typeIds : (typeIds atoms).length = atoms.length := by
  unfold typeIds firstAppearance
  split
  · rw [List.length_map]
  · rw [length_numberAfter, List.length_map]

theorem length_writtenIds : (writtenIds atoms).length = atoms.length := by
  unfold writtenIds
  dsimp only
  split
  · rw [List.length_map]
  · rw [List.length_range', List.length_map]

/-- The atoms with the ids and the types that are written for them. -/
def writtenRows (atoms : List (Atom Double)) : List (Atom Double × Nat × Nat) :=
  atoms.zip ((writtenIds atoms).zip (typeIds atoms))

/-- Each column of the rows is what it was made of. -/
theorem columns_writtenRows (atoms : List (Atom Double)) :
    (writtenRows atoms).map (·.1) = atoms ∧ (writtenRows atoms).map (·.2.1) = writtenIds atoms ∧
      (writtenRows atoms).map (·.2.2) = typeIds atoms := by
  have hids : ((writtenIds atoms).zip (typeIds atoms)).length = atoms.length := by
    rw [List.length_zip, length_writtenIds, length_typeIds, min_self]
  have hpairs : (writtenRows atoms).map Prod.snd = (writtenIds atoms).zip (typeIds atoms) :=
    List.map_snd_zip hids.le
  have hlength : (writtenIds atoms).length = (typeIds atoms).length := by
    rw [length_writtenIds, length_typeIds]
  refine ⟨List.map_fst_zip hids.ge, ?_, ?_⟩
  · calc (writtenRows atoms).map (·.2.1)
        = ((writtenRows atoms).map Prod.snd).map Prod.fst := by rw [List.map_map]; rfl
      _ = writtenIds atoms := by rw [hpairs, List.map_fst_zip hlength.le]
  · calc (writtenRows atoms).map (·.2.2)
        = ((writtenRows atoms).map Prod.snd).map Prod.snd := by rw [List.map_map]; rfl
      _ = typeIds atoms := by rw [hpairs, List.map_snd_zip hlength.ge]

/-! ## The table of the types -/

/-- Mass and element of a type are those of the first atom of the type. -/
theorem getElem?_massTable (t : Nat) : (massTable atoms)[t]? =
    ((atoms.zip (typeIds atoms)).find? (·.2 == t)).map fun row => (row.1.mass, row.1.element) := by
  unfold massTable
  rw [getElem?_foldl_insertIfNew Prod.snd fun row : Atom Double × Nat =>
    (row.1.mass, row.1.element), Std.TreeMap.getElem?_emptyc, Option.none_or]

/-- Every row of the table was made for some atom. -/
theorem exists_of_mem_massTable {row : Nat × Double × String} (h : row ∈ (massTable atoms).toList) :
    ∃ a, (a, row.1) ∈ atoms.zip (typeIds atoms) ∧ row.2 = (a.mass, a.element) := by
  obtain ⟨t, value⟩ := row
  rw [Std.TreeMap.mem_toList_iff_getElem?_eq_some, getElem?_massTable, Option.map_eq_some_iff] at h
  obtain ⟨⟨a, t'⟩, hfind, rfl⟩ := h
  obtain rfl : t' = t := by simpa using List.find?_some hfind
  exact ⟨a, List.mem_of_find?_eq_some hfind, rfl⟩

/-- The types that are written are the keys of the table. -/
theorem mem_massTable_iff {t : Nat} : t ∈ massTable atoms ↔ t ∈ typeIds atoms := by
  rw [← Std.TreeMap.isSome_getElem?_iff_mem, getElem?_massTable, Option.isSome_map,
    List.find?_isSome]
  constructor
  · rintro ⟨⟨a, t'⟩, hrow, ht⟩
    obtain rfl : t' = t := by simpa using ht
    exact (List.of_mem_zip hrow).2
  · intro ht
    obtain ⟨i, hi, rfl⟩ := List.getElem_of_mem ht
    have hatom : i < atoms.length := by
      rw [length_typeIds] at hi
      exact hi
    refine ⟨(atoms[i], (typeIds atoms)[i]), ?_, by simp⟩
    rw [List.mem_iff_getElem]
    exact ⟨i, by simp [hatom, hi], by simp⟩

/-! ## Lines -/

/-- The lines of the header, below the comment. -/
def headRows (atoms : List (Atom Double)) (padding : Double) : List (List Char) :=
  [[], [' '].intercalate (countFields atoms.length ["atoms"]),
    [' '].intercalate (countFields (massTable atoms).size ["atom", "types"]), [],
    [' '].intercalate (edgeFields (paddedBox atoms padding) .x),
    [' '].intercalate (edgeFields (paddedBox atoms padding) .y),
    [' '].intercalate (edgeFields (paddedBox atoms padding) .z)]

/-- The line of a mass, with the element as a remark. -/
def massRow (row : Nat × Double × String) : List Char :=
  [' '].intercalate (massFields row.1 row.2.1) ++ ' ' :: '#' :: ' ' :: row.2.2.toList

/-- The line of an atom. -/
def atomRow (row : Atom Double × Nat × Nat) : List Char :=
  [' '].intercalate (atomFields row.1 row.2.1 row.2.2)

/-- The line of a velocity. -/
def velocityRow (row : Atom Double × Nat) : List Char :=
  [' '].intercalate (velocityFields row.1 row.2)

/-- The lines of the velocities with their title, if there are any. -/
def velocityRows (atoms : List (Atom Double)) : List (List Char) :=
  if atoms.any fun a => !(a.velocity == 0) then
    [[], "Velocities".toList, []] ++ (atoms.zip (writtenIds atoms)).map velocityRow
  else []

theorem headerLines_map_toList : (headerLines atoms comment padding).map String.toList =
    (oneLine comment).toList :: headRows atoms padding := by
  simp [headerLines, headRows, countFields, edgeFields, List.intercalate_cons_cons]

theorem massLines_map_toList : (massLines atoms).map String.toList =
    [[], "Masses".toList, []] ++ (massTable atoms).toList.map massRow := by
  have hflat : ∀ (t : Nat) (mass : Double) (element : String),
      (toString t ++ " " ++ fixedText 4 mass ++ " # " ++ element).toList =
        massRow (t, mass, element) := by
    intro t mass element
    simp [massRow, massFields, List.intercalate_cons_cons]
  rw [massLines, List.map_append, List.map_map]
  refine congrArg ([[], "Masses".toList, []] ++ ·) ?_
  apply List.map_congr_left
  rintro ⟨t, mass, element⟩ -
  exact hflat t mass element

theorem atomLines_map_toList : (atomLines atoms).map String.toList =
    [[], "Atoms # full".toList, []] ++ (writtenRows atoms).map atomRow := by
  have hflat : ∀ (a : Atom Double) (id t : Nat),
      (" ".intercalate [toString id, toString a.molecule, toString t, fixedText 6 a.charge,
        vectorText a.position]).toList = atomRow (a, id, t) := by
    intro a id t
    simp [atomRow, atomFields, vectorText, Vec3.toList, List.intercalate_cons_cons]
  rw [atomLines, List.map_append, List.map_map]
  refine congrArg ([[], "Atoms # full".toList, []] ++ ·) ?_
  apply List.map_congr_left
  rintro ⟨a, id, t⟩ -
  exact hflat a id t

theorem velocityLines_map_toList :
    (velocityLines atoms).map String.toList = velocityRows atoms := by
  have hflat : ∀ (a : Atom Double) (id : Nat),
      (toString id ++ " " ++ vectorText a.velocity).toList = velocityRow (a, id) := by
    intro a id
    simp [velocityRow, velocityFields, vectorText, Vec3.toList, List.intercalate_cons_cons]
  unfold velocityLines velocityRows
  split
  · rw [List.map_append, List.map_map]
    refine congrArg ([[], "Velocities".toList, []] ++ ·) ?_
    apply List.map_congr_left
    rintro ⟨a, id⟩ -
    exact hflat a id
  · rfl

theorem dropReturn_row {ws : List (List Char)} (h : ∀ w ∈ ws, IsField w) :
    Text.dropReturn ([' '].intercalate ws) = [' '].intercalate ws := by
  refine Text.dropReturn_of_notMem (Text.notMem_intercalate (by decide) fun w hw hreturn => ?_)
  have hblank := (h w hw).isBlank_eq_false '\r' hreturn
  revert hblank
  decide

/-- No line has a line feed in it when no element has. -/
theorem feed_notMem_lines (h : ∀ a ∈ atoms, '\n' ∉ a.element.toList) :
    ∀ line ∈ (headerLines atoms comment padding ++ massLines atoms ++ atomLines atoms ++
      velocityLines atoms).map String.toList, '\n' ∉ line := by
  have hhead : ∀ line ∈ headRows atoms padding, '\n' ∉ line := by
    simp only [headRows, List.forall_mem_cons]
    exact ⟨by simp, feed_notMem_row (isField_of_mem_countFields isField_atoms),
      feed_notMem_row (isField_of_mem_countFields isField_atomTypes), by simp,
      feed_notMem_row isField_of_mem_edgeFields, feed_notMem_row isField_of_mem_edgeFields,
      feed_notMem_row isField_of_mem_edgeFields, by simp⟩
  have hmass : ∀ row ∈ (massTable atoms).toList, '\n' ∉ massRow row := by
    intro row hrow hfeed
    obtain ⟨a, ha, hvalue⟩ := exists_of_mem_massTable hrow
    have helement := h a (List.of_mem_zip ha).1
    rw [massRow, hvalue, List.mem_append] at hfeed
    rcases hfeed with hfeed | hfeed
    · exact feed_notMem_row isField_of_mem_massFields hfeed
    · simp [helement] at hfeed
  have hatom : ∀ row, '\n' ∉ atomRow row := fun row => feed_notMem_row isField_of_mem_atomFields
  have hvelocity : ∀ row, '\n' ∉ velocityRow row :=
    fun row => feed_notMem_row isField_of_mem_velocityFields
  have hvelocities : ∀ line ∈ velocityRows atoms, '\n' ∉ line := by
    unfold velocityRows
    split
    · simp only [List.forall_mem_append, List.forall_mem_cons, List.forall_mem_map]
      exact ⟨by simp, fun row _ => hvelocity row⟩
    · simp
  simp only [List.map_append, headerLines_map_toList, massLines_map_toList, atomLines_map_toList,
    velocityLines_map_toList, List.forall_mem_append, List.forall_mem_cons, List.forall_mem_map]
  exact ⟨⟨⟨⟨feed_notMem_oneLine, hhead⟩, by simp, hmass⟩, by simp, fun row _ => hatom row⟩,
    hvelocities⟩

/-- **The lines of a data file.** A carriage return at the end of the comment or of an element is
lost. -/
theorem lines_write (h : ∀ a ∈ atoms, '\n' ∉ a.element.toList) :
    Text.lines (write atoms comment padding).toList =
      Text.dropReturn (oneLine comment).toList :: (headRows atoms padding ++
        ([[], "Masses".toList, []] ++ ((massTable atoms).toList.map massRow).map Text.dropReturn) ++
        ([[], "Atoms # full".toList, []] ++ (writtenRows atoms).map atomRow) ++
        velocityRows atoms) := by
  have hhead : (headRows atoms padding).map Text.dropReturn = headRows atoms padding := by
    simp only [headRows, List.map_cons, List.map_nil,
      dropReturn_row (isField_of_mem_countFields isField_atoms),
      dropReturn_row (isField_of_mem_countFields isField_atomTypes),
      dropReturn_row isField_of_mem_edgeFields]
    rfl
  have hatoms : ∀ rows : List (Atom Double × Nat × Nat),
      (rows.map atomRow).map Text.dropReturn = rows.map atomRow := by
    intro rows
    rw [List.map_map]
    exact List.map_congr_left fun row _ => dropReturn_row isField_of_mem_atomFields
  have hvelocity : ∀ row, Text.dropReturn (velocityRow row) = velocityRow row :=
    fun row => dropReturn_row isField_of_mem_velocityFields
  have hvelocities : (velocityRows atoms).map Text.dropReturn = velocityRows atoms := by
    unfold velocityRows
    split
    · simp [hvelocity, Text.dropReturn_of_notMem]
    · rfl
  have htext : (write atoms comment padding).toList =
      ((headerLines atoms comment padding ++ massLines atoms ++ atomLines atoms ++
        velocityLines atoms).map String.toList).flatMap fun line => line ++ ['\n'] := by
    simp [write, List.flatMap_map]
  rw [htext, Text.lines_flatMap (feed_notMem_lines h)]
  simp only [List.map_append, headerLines_map_toList, massLines_map_toList, atomLines_map_toList,
    velocityLines_map_toList, List.map_cons, List.map_nil, hhead, hatoms, hvelocities]
  rfl

end Honeycomb.LammpsData
