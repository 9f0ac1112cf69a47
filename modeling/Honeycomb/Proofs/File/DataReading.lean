import Mathlib
import Honeycomb.Proofs.File.DataText

/-!
# Reading the rows of a LAMMPS data file

What the reader makes of the lines that are written.

* `Draft.Reads` — lines that are read without a fault, and the draft they lead to.
* `Draft.addLine_row`, `Draft.addLine_title` — how a row of fields and a title are taken.
* `Draft.exists_reads_headRows` — the header: it declares the number of the atoms, whatever the box.
* `Draft.reads_masses`, `Draft.reads_atoms`, `Draft.reads_velocities` — the sections: each row adds
  its entry, with what the decimals that are written leave of its numbers.
-/

set_option autoImplicit false

namespace Honeycomb.LammpsData.Draft

variable {d d' d'' : Draft} {lines more : List (List Char)}

/-! ## Runs -/

/-- Lines that are read without a fault, wherever they stand, from one draft to another. -/
inductive Reads : Draft → List (List Char) → Draft → Prop where
  | nil (d : Draft) : Reads d [] d
  | cons {d d' d'' : Draft} {text : List Char} {lines : List (List Char)} :
      (∀ n, d.addLine n text = .ok d') → Reads d' lines d'' → Reads d (text :: lines) d''

theorem Reads.addLines_eq (h : Reads d lines d') (n : Nat) : d.addLines n lines = .ok d' := by
  induction h generalizing n with
  | nil d => rfl
  | cons htext _ ih =>
    rw [addLines, htext n]
    exact ih (n + 1)

theorem Reads.append (h : Reads d lines d') (hmore : Reads d' more d'') :
    Reads d (lines ++ more) d'' := by
  induction h with
  | nil d => exact hmore
  | cons htext _ ih => exact .cons htext (ih hmore)

/-! ## Lines -/

theorem readField_ok {β : Type} {parse : List Char → Option β} {fields : List (List Char)}
    {field : List Char} {i : Nat} {b : β} (hfield : fields[i]? = some field)
    (hparse : parse field = some b) (n : Nat) (what : String) :
    readField parse n fields i what = .ok b := by
  rw [readField, hfield]
  dsimp only
  rw [hparse]

theorem splitRemark_row {ws : List (List Char)} (h : ∀ w ∈ ws, IsField w) :
    splitRemark ([' '].intercalate ws) = ([' '].intercalate ws, none) := by
  rw [splitRemark, Text.splitAtFirst_of_notMem (hash_notMem_row h)]
  dsimp only
  rw [Text.trim_intercalate fun w hw => (h w hw).toIsWord]

theorem addLine_blank (d : Draft) (n : Nat) : d.addLine n [] = .ok d :=
  rfl

/-- A row of fields is a title when it begins with a letter, and content otherwise. -/
theorem addLine_row {ws : List (List Char)} (h : ∀ w ∈ ws, IsField w) {c : Char}
    (hc : ([' '].intercalate ws).head? = some c) (d : Draft) (n : Nat) :
    d.addLine n ([' '].intercalate ws) =
      if c.isAlpha then .ok { d with current := .ofTitle ([' '].intercalate ws) }
      else d.addContent n ([' '].intercalate ws) none := by
  obtain ⟨rest, hrow⟩ := List.head?_eq_some_iff.1 hc
  rw [addLine, splitRemark_row h, hrow]

theorem addLine_title {title : String} (hfield : IsField title.toList) {c : Char}
    (hc : title.toList.head? = some c) (halpha : c.isAlpha = true) (d : Draft) (n : Nat) :
    d.addLine n title.toList = .ok { d with current := .ofTitle title.toList } := by
  have hrow := addLine_row (List.forall_mem_singleton.2 hfield) (by simpa using hc) d n
  rw [List.intercalate_singleton, if_pos halpha] at hrow
  exact hrow

theorem ofTitle_of_isField {w : List Char} (h : IsField w) : Section.ofTitle w =
    if w = "Masses".toList then .masses
    else if w = "Atoms".toList then .atoms
    else if w = "Velocities".toList then .velocities
    else .other := by
  rw [Section.ofTitle, h.toIsWord.words_eq]
  rfl

theorem addLine_masses (d : Draft) (n : Nat) :
    d.addLine n "Masses".toList = .ok { d with current := .masses } := by
  have hfield : IsField "Masses".toList := isField_of_visible (by simp) (by simp)
  rw [addLine_title hfield rfl rfl, ofTitle_of_isField hfield]
  rfl

theorem addLine_velocities (d : Draft) (n : Nat) :
    d.addLine n "Velocities".toList = .ok { d with current := .velocities } := by
  have hfield : IsField "Velocities".toList := isField_of_visible (by simp) (by simp)
  rw [addLine_title hfield rfl rfl, ofTitle_of_isField hfield]
  rfl

/-- The style of the atoms is a remark. -/
theorem addLine_atoms (d : Draft) (n : Nat) :
    d.addLine n "Atoms # full".toList = .ok { d with current := .atoms } := by
  have hfield : IsField "Atoms".toList := isField_of_visible (by simp) (by simp)
  have hsplit : splitRemark "Atoms # full".toList = ("Atoms".toList, some "full".toList) := by
    decide
  rw [addLine, hsplit]
  change Except.ok { d with current := Section.ofTitle "Atoms".toList } = _
  rw [ofTitle_of_isField hfield]
  rfl

/-! ## The header -/

/-- What is known in the header: some number of atoms at most, and nothing of any section. -/
structure IsHead (declared : Option Nat) (d : Draft) : Prop where
  current : d.current = .header ∨ d.current = .other
  declared_eq : d.declared = declared
  masses_eq : d.masses = ∅
  atomLines_eq : d.atomLines = []
  velocities_eq : d.velocities = ∅

/-- Texts that end differently do not end each other. -/
theorem not_isSuffixOf {tag before last : List Char} {k : Nat}
    (h : tag.reverse.take k ≠ last.reverse.take k) (htag : k ≤ tag.length)
    (hlast : k ≤ last.length) : tag.isSuffixOf (before ++ last) = false := by
  rw [← Bool.not_eq_true, List.isSuffixOf_iff_suffix]
  rintro ⟨front, hfront⟩
  apply h
  have hreverse := congrArg (fun text => text.reverse.take k) hfront
  simp only [List.reverse_append] at hreverse
  rwa [List.take_append_of_le_length (by simpa using htag),
    List.take_append_of_le_length (by simpa using hlast)] at hreverse

theorem exists_digit_count (count : Nat) (ws : List (List Char)) :
    ∃ c rest, [' '].intercalate ((toString count).toList :: ws) = c :: rest ∧ c.isDigit = true := by
  obtain ⟨c, digits, hdigits⟩ := List.exists_cons_of_ne_nil (isField_count count).ne_nil
  have hdigit : c.isDigit = true := by
    apply isDigit_of_mem_toString
    rw [hdigits]
    exact List.mem_cons_self
  rw [hdigits]
  cases ws with
  | nil => exact ⟨c, digits, List.intercalate_singleton, hdigit⟩
  | cons w ws => exact ⟨c, _, by rw [List.intercalate_cons_cons]; rfl, hdigit⟩

/-- A row that begins with a count is content. -/
theorem addLine_count {ws : List (List Char)} (h : ∀ w ∈ ws, IsField w) (count : Nat) (d : Draft)
    (n : Nat) :
    d.addLine n ([' '].intercalate ((toString count).toList :: ws)) =
      d.addContent n ([' '].intercalate ((toString count).toList :: ws)) none := by
  have hfields : ∀ w ∈ (toString count).toList :: ws, IsField w := by
    rw [List.forall_mem_cons]
    exact ⟨isField_count count, h⟩
  obtain ⟨c, rest, hrow, hdigit⟩ := exists_digit_count count ws
  have hc : ([' '].intercalate ((toString count).toList :: ws)).head? = some c := by
    rw [hrow, List.head?_cons]
  rw [addLine_row hfields hc, isAlpha_of_isDigit hdigit]
  rfl

theorem addContent_header (hd : d.current = .header) (n : Nat) (content : List Char)
    (remark : Option (List Char)) :
    d.addContent n content remark = d.addHeader n content (Text.words content) := by
  rw [addContent, hd]

/-- The number of the atoms is taken. -/
theorem addLine_atomCount {atoms : Nat} (hatoms : atoms < 2 ^ 64) (d : Draft)
    (hd : d.current = .header) (n : Nat) :
    d.addLine n ([' '].intercalate (countFields atoms ["atoms"])) =
      .ok { d with declared := some atoms } := by
  have hwords := words_row (isField_of_mem_countFields (n := atoms) isField_atoms)
  have htext : [' '].intercalate (countFields atoms ["atoms"]) =
      ((toString atoms).toList ++ [' ']) ++ "atoms".toList := by
    simp [countFields, List.intercalate_cons_cons]
  have htypes : "atom types".toList.isSuffixOf ([' '].intercalate (countFields atoms ["atoms"])) =
      false := by
    rw [htext]
    exact not_isSuffixOf (k := 2) (by decide) (by decide) (by decide)
  have hcount : "atoms".toList.isSuffixOf ([' '].intercalate (countFields atoms ["atoms"])) =
      true := by
    rw [List.isSuffixOf_iff_suffix, htext]
    exact List.suffix_append _ _
  have hread : readField readCount n (countFields atoms ["atoms"]) 0 "atom count" = .ok atoms :=
    readField_ok rfl (readCount_toString hatoms) n "atom count"
  have hcontent := addLine_count (List.forall_mem_map.2 isField_atoms) atoms d n
  rw [addContent_header hd] at hcontent
  refine hcontent.trans ?_
  change d.addHeader n ([' '].intercalate (countFields atoms ["atoms"]))
    (Text.words ([' '].intercalate (countFields atoms ["atoms"]))) = _
  simp only [addHeader, hwords, htypes, hcount, hread, Bool.false_eq_true, if_false, if_true]
  rfl

/-- The number of the types is not looked at. -/
theorem addLine_typeCount (types : Nat) (d : Draft) (hd : d.current = .header) (n : Nat) :
    d.addLine n ([' '].intercalate (countFields types ["atom", "types"])) = .ok d := by
  have htext : [' '].intercalate (countFields types ["atom", "types"]) =
      ((toString types).toList ++ [' ']) ++ "atom types".toList := by
    simp [countFields, List.intercalate_cons_cons]
  have htypes : "atom types".toList.isSuffixOf
      ([' '].intercalate (countFields types ["atom", "types"])) = true := by
    rw [List.isSuffixOf_iff_suffix, htext]
    exact List.suffix_append _ _
  have hcontent := addLine_count (List.forall_mem_map.2 isField_atomTypes) types d n
  rw [addContent_header hd] at hcontent
  refine hcontent.trans ?_
  change d.addHeader n ([' '].intercalate (countFields types ["atom", "types"])) _ = _
  simp only [addHeader, htypes, if_true]

/-- Bounds leave the rest of the header as it is. -/
theorem IsHead.withBounds {declared : Option Nat} (h : IsHead declared d) (x y z : Bounds) :
    IsHead declared { d with xBounds := x, yBounds := y, zBounds := z, hasBox := true } :=
  ⟨h.current, h.declared_eq, h.masses_eq, h.atomLines_eq, h.velocities_eq⟩

/-- A line with two numbers in front that does not count atoms is read as bounds or skipped. -/
theorem exists_addHeader {declared : Option Nat} (h : IsHead declared d) {content : List Char}
    {fields : List (List Char)} (hatoms : "atoms".toList.isSuffixOf content = false) {b : Bounds}
    (hb : ∀ n, readBounds n fields = .ok b) :
    ∃ d', IsHead declared d' ∧ ∀ n, d.addHeader n content fields = .ok d' := by
  by_cases htypes : "atom types".toList.isSuffixOf content = true
  · refine ⟨d, h, fun n => ?_⟩
    simp only [addHeader, htypes, if_true]
  by_cases hx : "xlo xhi".toList.isSuffixOf content = true
  · refine ⟨_, h.withBounds b d.yBounds d.zBounds, fun n => ?_⟩
    simp only [addHeader, htypes, hatoms, hx, hb, Bool.false_eq_true, if_false, if_true]
    rfl
  by_cases hy : "ylo yhi".toList.isSuffixOf content = true
  · refine ⟨_, h.withBounds d.xBounds b d.zBounds, fun n => ?_⟩
    simp only [addHeader, htypes, hatoms, hx, hy, hb, Bool.false_eq_true, if_false, if_true]
    rfl
  by_cases hz : "zlo zhi".toList.isSuffixOf content = true
  · refine ⟨_, h.withBounds d.xBounds d.yBounds b, fun n => ?_⟩
    simp only [addHeader, htypes, hatoms, hx, hy, hz, hb, Bool.false_eq_true, if_false, if_true]
    rfl
  · refine ⟨d, h, fun n => ?_⟩
    simp only [addHeader, htypes, hatoms, hx, hy, hz, Bool.false_eq_true, if_false]

/-- The bounds of an edge are read whatever numbers they are. -/
theorem exists_readBounds (box : Cuboid Double) (axis : Axis) :
    ∃ b, ∀ n, readBounds n (edgeFields box axis) = .ok b := by
  have hlow := readDouble_fixedText (by decide : 0 < 8) (box.low.along axis)
  have hhigh := readDouble_fixedText (by decide : 0 < 8) (box.high.along axis)
  refine ⟨⟨(box.low.along axis).restored 8, (box.high.along axis).restored 8⟩, fun n => ?_⟩
  have hfirst : readField readDouble n (edgeFields box axis) 0 "lower bound" =
      .ok ((box.low.along axis).restored 8) := readField_ok rfl hlow n _
  have hsecond : readField readDouble n (edgeFields box axis) 1 "upper bound" =
      .ok ((box.high.along axis).restored 8) := readField_ok rfl hhigh n _
  rw [readBounds, hfirst, hsecond]
  rfl

/-- No section is called like a number. -/
theorem ofTitle_edge (box : Cuboid Double) (axis : Axis) :
    Section.ofTitle ([' '].intercalate (edgeFields box axis)) = .other := by
  have hfirst : IsField (fixedText 8 (box.low.along axis)).toList := isField_double (by decide) _
  obtain ⟨c, text, htext⟩ := List.exists_cons_of_ne_nil hfirst.ne_nil
  have htitle : ∀ title : String, ¬IsNumeralChar (title.toList.headD ' ') →
      (fixedText 8 (box.low.along axis)).toList ≠ title.toList := by
    intro title htitle heq
    apply htitle
    rw [← heq, htext]
    exact isNumeralChar_of_mem_fixedText (by decide) (htext ▸ List.mem_cons_self)
  have hmasses := htitle "Masses" (by simp [IsNumeralChar])
  have hatoms := htitle "Atoms" (by simp [IsNumeralChar])
  have hvelocities := htitle "Velocities" (by simp [IsNumeralChar])
  rw [Section.ofTitle, words_row isField_of_mem_edgeFields]
  simp only [edgeFields, List.head?_cons, hmasses, hatoms, hvelocities, if_false]

/-- The line of an edge ends in another letter than the line that counts the atoms. -/
theorem atoms_not_isSuffixOf_edge (box : Cuboid Double) (axis : Axis) :
    "atoms".toList.isSuffixOf ([' '].intercalate (edgeFields box axis)) = false := by
  have hne : edgeFields box axis ≠ [] := List.cons_ne_nil _ _
  obtain ⟨before, hbefore⟩ := Text.exists_intercalate_eq hne
  have hlast : [' '].intercalate (edgeFields box axis) =
      (before ++ axis.name.toList ++ ['h']) ++ ['i'] := by
    rw [hbefore]
    simp [edgeFields]
  rw [hlast]
  exact not_isSuffixOf (k := 1) (by decide) (by decide) (by decide)

/-- The line of an edge that begins with a number is a header line. One that begins with a word,
for what is no number, looks like the title of a section that nobody reads. -/
theorem exists_addLine_edge {declared : Option Nat} (h : IsHead declared d) (box : Cuboid Double)
    (axis : Axis) : ∃ d', IsHead declared d' ∧
      ∀ n, d.addLine n ([' '].intercalate (edgeFields box axis)) = .ok d' := by
  have hfields : ∀ w ∈ edgeFields box axis, IsField w := isField_of_mem_edgeFields
  obtain ⟨c, hc⟩ : ∃ c, ([' '].intercalate (edgeFields box axis)).head? = some c := by
    have hfirst : IsField (fixedText 8 (box.low.along axis)).toList := isField_double (by decide) _
    obtain ⟨c, text, htext⟩ := List.exists_cons_of_ne_nil hfirst.ne_nil
    refine ⟨c, ?_⟩
    rw [edgeFields, htext]
    rfl
  by_cases halpha : c.isAlpha = true
  · refine ⟨{ d with current := .other },
      ⟨.inr rfl, h.declared_eq, h.masses_eq, h.atomLines_eq, h.velocities_eq⟩, fun n => ?_⟩
    rw [addLine_row hfields hc, if_pos halpha, ofTitle_edge]
  · obtain ⟨b, hb⟩ := exists_readBounds box axis
    rcases h.current with hcurrent | hcurrent
    · obtain ⟨d', hd', hadd⟩ := exists_addHeader h (atoms_not_isSuffixOf_edge box axis) hb
      refine ⟨d', hd', fun n => ?_⟩
      rw [addLine_row hfields hc, if_neg halpha, addContent_header hcurrent, words_row hfields,
        hadd]
    · refine ⟨d, h, fun n => ?_⟩
      rw [addLine_row hfields hc, if_neg halpha, addContent, hcurrent]

/-- **The header is read whatever the box is**, and it declares the number of the atoms. -/
theorem exists_reads_headRows {atoms : List (Atom Double)} (hlength : atoms.length < 2 ^ 64)
    (padding : Double) :
    ∃ d, IsHead (some atoms.length) d ∧ Reads {} (headRows atoms padding) d := by
  have hcounted : IsHead (some atoms.length) { declared := some atoms.length } :=
    ⟨.inl rfl, rfl, rfl, rfl, rfl⟩
  obtain ⟨dx, hx, hreadsx⟩ := exists_addLine_edge hcounted (paddedBox atoms padding) .x
  obtain ⟨dy, hy, hreadsy⟩ := exists_addLine_edge hx (paddedBox atoms padding) .y
  obtain ⟨dz, hz, hreadsz⟩ := exists_addLine_edge hy (paddedBox atoms padding) .z
  refine ⟨dz, hz, ?_⟩
  exact .cons (addLine_blank _) <| .cons (addLine_atomCount hlength _ rfl) <|
    .cons (addLine_typeCount _ _ rfl) <| .cons (addLine_blank _) <| .cons hreadsx <|
      .cons hreadsy <| .cons hreadsz <| .nil dz

/-! ## Sections -/

/-- A section whose rows are read one after another: `state` says what the rows so far lead to. -/
theorem reads_rows {β : Type} {line : β → List Char} (state : List β → Draft) {rows : List β}
    (hstep : ∀ earlier row, row ∈ rows → ∀ n,
      (state earlier).addLine n (line row) = .ok (state (earlier ++ [row]))) :
    Reads (state []) (rows.map line) (state rows) := by
  have hfrom : ∀ later earlier, (∀ row ∈ later, row ∈ rows) →
      Reads (state earlier) (later.map line) (state (earlier ++ later)) := by
    intro later
    induction later with
    | nil =>
      intro earlier _
      rw [List.append_nil]
      exact .nil (state earlier)
    | cons row later ih =>
      intro earlier hlater
      have hread := hstep earlier row (hlater row List.mem_cons_self)
      have hrest := ih (earlier ++ [row]) fun row' hrow' =>
        hlater row' (List.mem_cons_of_mem row hrow')
      rw [List.append_assoc, List.singleton_append] at hrest
      exact .cons hread hrest
  exact hfrom rows [] fun _ hrow => hrow

theorem addContent_masses (hd : d.current = .masses) (n : Nat) (content : List Char)
    (remark : Option (List Char)) :
    d.addContent n content remark = d.addMass n (Text.words content) remark := by
  rw [addContent, hd]

theorem addContent_atoms (hd : d.current = .atoms) (n : Nat) (content : List Char)
    (remark : Option (List Char)) :
    d.addContent n content remark = (readAtomLine n (Text.words content)).map fun a =>
      { d with atomLines := a :: d.atomLines } := by
  rw [addContent, hd]

theorem addContent_velocities (hd : d.current = .velocities) (n : Nat) (content : List Char)
    (remark : Option (List Char)) :
    d.addContent n content remark = (readVelocity n (Text.words content)).map fun (id, v) =>
      { d with velocities := d.velocities.insert id v } := by
  rw [addContent, hd]

/-- What the row of a mass says. -/
def massEntry (row : Nat × Double × String) : Nat × MassLine :=
  (row.1, ⟨row.2.1.restored 4, some row.2.2⟩)

/-- A mass that can be written: a count, any number and a label that fits behind the hash sign. -/
structure IsMassRow (row : Nat × Double × String) : Prop where
  type_lt : row.1 < 2 ^ 64
  isLabel : IsLabel row.2.2

/-- The label does not end in a blank, so that the line keeps its end. -/
theorem dropReturn_massRow {row : Nat × Double × String} (h : IsMassRow row) :
    Text.dropReturn (massRow row) = massRow row := by
  apply Text.dropReturn_of_getLast?
  intro c hc
  rw [massRow, List.getLast?_append, List.getLast?_cons_cons, List.getLast?_cons_cons,
    ← List.singleton_append, List.getLast?_append,
    List.getLast?_eq_some_getLast h.isLabel.ne_nil, Option.some_or, Option.some_or] at hc
  apply Text.isBlank_getLast?_trim row.2.2.toList c
  rw [h.isLabel.trimmed, List.getLast?_eq_some_getLast h.isLabel.ne_nil]
  exact hc

theorem addLine_massRow {row : Nat × Double × String} (h : IsMassRow row)
    (hd : d.current = .masses) (n : Nat) :
    d.addLine n (massRow row) =
      .ok { d with masses := d.masses.insert (massEntry row).1 (massEntry row).2 } := by
  have hfields : ∀ w ∈ massFields row.1 row.2.1, IsField w := isField_of_mem_massFields
  have hsplit : splitRemark (massRow row) =
      ([' '].intercalate (massFields row.1 row.2.1), some row.2.2.toList) := by
    have hrow : massRow row = ([' '].intercalate (massFields row.1 row.2.1) ++ [' ']) ++
        '#' :: (' ' :: row.2.2.toList) := by
      simp [massRow]
    have hhash : '#' ∉ [' '].intercalate (massFields row.1 row.2.1) ++ [' '] := by
      simpa using hash_notMem_row hfields
    rw [splitRemark, hrow, Text.splitAtFirst_append_cons hhash]
    dsimp only
    rw [Text.trim_append_blank (by decide), Text.trim_cons_blank (by decide), h.isLabel.trimmed,
      Text.trim_intercalate fun w hw => (hfields w hw).toIsWord]
  obtain ⟨c, rest, hrest, hdigit⟩ := exists_digit_count row.1 [(fixedText 4 row.2.1).toList]
  have htype : readField readCount n (massFields row.1 row.2.1) 0 "atom type" = .ok row.1 :=
    readField_ok rfl (readCount_toString h.type_lt) n _
  have hmass : readField readDouble n (massFields row.1 row.2.1) 1 "mass" =
      .ok (row.2.1.restored 4) :=
    readField_ok rfl (readDouble_fixedText (by decide) row.2.1) n _
  have hlabel : ((some row.2.2.toList).filter (!·.isEmpty)).map String.ofList = some row.2.2 := by
    simp [h.isLabel.ne_nil]
  rw [addLine, hsplit, massFields, hrest]
  dsimp only
  rw [isAlpha_of_isDigit hdigit, ← hrest, addContent_masses hd]
  change d.addMass n (Text.words ([' '].intercalate (massFields row.1 row.2.1))) _ = _
  rw [words_row hfields, addMass, htype, hmass]
  dsimp only
  rw [hlabel]
  rfl

/-- **The masses are read** with four decimals, each under its type and with its label. -/
theorem reads_masses {rows : List (Nat × Double × String)} (hrows : ∀ row ∈ rows, IsMassRow row)
    (d : Draft) :
    Reads d ([[], "Masses".toList, []] ++ rows.map massRow)
      { d with current := .masses, masses := d.masses.insertMany (rows.map massEntry) } := by
  refine .cons (addLine_blank d) <| .cons (addLine_masses d) <| .cons (addLine_blank _) ?_
  refine reads_rows (fun earlier =>
    { d with current := .masses, masses := d.masses.insertMany (earlier.map massEntry) })
    fun earlier row hrow n => ?_
  rw [addLine_massRow (hrows row hrow) rfl, List.map_append, Std.TreeMap.insertMany_append]
  rfl

/-- What the row of an atom says. -/
def atomEntry (row : Atom Double × Nat × Nat) : AtomLine :=
  ⟨row.2.1, row.1.molecule, row.2.2, row.1.charge.restored 6, row.1.position.map (·.restored 8)⟩

/-- An atom that can be written with an id and a type: these and its molecule are counts. -/
structure IsAtomRow (row : Atom Double × Nat × Nat) : Prop where
  id_lt : row.2.1 < 2 ^ 64
  molecule_lt : row.1.molecule < 2 ^ 64
  type_lt : row.2.2 < 2 ^ 64

theorem readAtomLine_atomFields {row : Atom Double × Nat × Nat} (h : IsAtomRow row) (n : Nat) :
    readAtomLine n (atomFields row.1 row.2.1 row.2.2) = .ok (atomEntry row) := by
  have hid : readField readCount n (atomFields row.1 row.2.1 row.2.2) 0 "atom id" = .ok row.2.1 :=
    readField_ok rfl (readCount_toString h.id_lt) n _
  have hmolecule : readField readCount n (atomFields row.1 row.2.1 row.2.2) 1 "molecule id" =
      .ok row.1.molecule :=
    readField_ok rfl (readCount_toString h.molecule_lt) n _
  have htype : readField readCount n (atomFields row.1 row.2.1 row.2.2) 2 "atom type" =
      .ok row.2.2 :=
    readField_ok rfl (readCount_toString h.type_lt) n _
  have hcharge : readField readDouble n (atomFields row.1 row.2.1 row.2.2) 3 "charge" =
      .ok (row.1.charge.restored 6) :=
    readField_ok rfl (readDouble_fixedText (by decide) row.1.charge) n _
  have hreadx : readField readDouble n (atomFields row.1 row.2.1 row.2.2) 4 "x" =
      .ok (row.1.position.x.restored 8) :=
    readField_ok rfl (readDouble_fixedText (by decide) row.1.position.x) n _
  have hready : readField readDouble n (atomFields row.1 row.2.1 row.2.2) 5 "y" =
      .ok (row.1.position.y.restored 8) :=
    readField_ok rfl (readDouble_fixedText (by decide) row.1.position.y) n _
  have hreadz : readField readDouble n (atomFields row.1 row.2.1 row.2.2) 6 "z" =
      .ok (row.1.position.z.restored 8) :=
    readField_ok rfl (readDouble_fixedText (by decide) row.1.position.z) n _
  have hlength : ¬(atomFields row.1 row.2.1 row.2.2).length < 7 := by
    simp [atomFields]
  rw [readAtomLine, if_neg hlength, hid, hmolecule, htype, hcharge, hreadx, hready, hreadz]
  rfl

theorem addLine_atomRow {row : Atom Double × Nat × Nat} (h : IsAtomRow row)
    (hd : d.current = .atoms) (n : Nat) :
    d.addLine n (atomRow row) = .ok { d with atomLines := atomEntry row :: d.atomLines } := by
  have hfields : ∀ w ∈ atomFields row.1 row.2.1 row.2.2, IsField w := isField_of_mem_atomFields
  have hcontent : d.addLine n (atomRow row) = d.addContent n (atomRow row) none :=
    addLine_count (List.forall_mem_cons.1 hfields).2 row.2.1 d n
  rw [hcontent, addContent_atoms hd, atomRow, words_row hfields, readAtomLine_atomFields h]
  rfl

/-- **The atoms are read** with the decimals that they are written with, the last one first. -/
theorem reads_atoms {rows : List (Atom Double × Nat × Nat)} (hrows : ∀ row ∈ rows, IsAtomRow row)
    (d : Draft) :
    Reads d ([[], "Atoms # full".toList, []] ++ rows.map atomRow)
      { d with
        current := .atoms
        atomLines := (rows.map atomEntry).reverse ++ d.atomLines } := by
  refine .cons (addLine_blank d) <| .cons (addLine_atoms d) <| .cons (addLine_blank _) ?_
  refine reads_rows (fun earlier =>
    { d with
      current := .atoms
      atomLines := (earlier.map atomEntry).reverse ++ d.atomLines }) fun earlier row hrow n => ?_
  rw [addLine_atomRow (hrows row hrow) rfl, List.map_append, List.reverse_append]
  rfl

/-- What the row of a velocity says. -/
def velocityEntry (row : Atom Double × Nat) : Nat × Vec3 Double :=
  (row.2, row.1.velocity.map (·.restored 8))

theorem addLine_velocityRow {row : Atom Double × Nat} (hid : row.2 < 2 ^ 64) (hd : d.current = .velocities) (n : Nat) :
    d.addLine n (velocityRow row) =
      .ok { d with
        velocities := d.velocities.insert (velocityEntry row).1 (velocityEntry row).2 } := by
  have hfields : ∀ w ∈ velocityFields row.1 row.2, IsField w := isField_of_mem_velocityFields
  have hreadid : readField readCount n (velocityFields row.1 row.2) 0 "atom id" = .ok row.2 :=
    readField_ok rfl (readCount_toString hid) n _
  have hreadx : readField readDouble n (velocityFields row.1 row.2) 1 "vx" =
      .ok (row.1.velocity.x.restored 8) :=
    readField_ok rfl (readDouble_fixedText (by decide) row.1.velocity.x) n _
  have hready : readField readDouble n (velocityFields row.1 row.2) 2 "vy" =
      .ok (row.1.velocity.y.restored 8) :=
    readField_ok rfl (readDouble_fixedText (by decide) row.1.velocity.y) n _
  have hreadz : readField readDouble n (velocityFields row.1 row.2) 3 "vz" =
      .ok (row.1.velocity.z.restored 8) :=
    readField_ok rfl (readDouble_fixedText (by decide) row.1.velocity.z) n _
  have hcontent : d.addLine n (velocityRow row) = d.addContent n (velocityRow row) none :=
    addLine_count (List.forall_mem_cons.1 hfields).2 row.2 d n
  rw [hcontent, addContent_velocities hd, velocityRow, words_row hfields, readVelocity, hreadid,
    hreadx, hready, hreadz]
  rfl

/-- **The velocities are read** with eight decimals, each under its id. -/
theorem reads_velocities {rows : List (Atom Double × Nat)} (hid : ∀ row ∈ rows, row.2 < 2 ^ 64)
    (d : Draft) :
    Reads d ([[], "Velocities".toList, []] ++ rows.map velocityRow)
      { d with
        current := .velocities
        velocities := d.velocities.insertMany (rows.map velocityEntry) } := by
  refine .cons (addLine_blank d) <| .cons (addLine_velocities d) <| .cons (addLine_blank _) ?_
  refine reads_rows (fun earlier =>
    { d with
      current := .velocities
      velocities := d.velocities.insertMany (earlier.map velocityEntry) })
    fun earlier row hrow n => ?_
  rw [addLine_velocityRow (hid row hrow) rfl, List.map_append,
    Std.TreeMap.insertMany_append]
  rfl

end Honeycomb.LammpsData.Draft
