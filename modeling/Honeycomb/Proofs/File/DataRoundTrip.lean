import Mathlib
import Honeycomb.Number.Distinct
import Honeycomb.Proofs.File.DataReading

/-!
# Data files that are written and read again

* `LammpsData.IsWritable` — what atoms must be like for a data file to hold them.
* `LammpsData.IsReadBack` — what comes back of atoms: all that a data file holds, with numbers
  rounded to the decimals that are written.
* `exists_reads_write` — what the reader knows at the end of the text; `atomOf_atomEntry` — the atom
  it makes of a line and of what the other sections say.

Principal result: `read_write` — what is written is read again.
-/

set_option autoImplicit false

namespace Honeycomb.LammpsData

variable {atoms : List (Atom Double)}

/-! ## Atoms in a file -/

/-- The mass that is taken from a file: one that does not round to a positive number counts as
none. -/
def massBack (mass : Double) : Double :=
  if 0 < mass.rounded 4 then mass.rounded 4 else 0

/-- Atoms that a data file can hold. Counts have sixty-four bits, numbers are finite, elements stand
at the end of a line, and atoms of one type have one element and one mass. An atom whose mass
does not round to a positive number has no standard mass to fall back on. -/
structure IsWritable (atoms : List (Atom Double)) : Prop where
  length_lt : atoms.length < 2 ^ 64
  id_lt : ∀ a ∈ atoms, a.id < 2 ^ 64
  molecule_lt : ∀ a ∈ atoms, a.molecule < 2 ^ 64
  type_lt : ∀ a ∈ atoms, a.type < 2 ^ 64
  charge_isFinite : ∀ a ∈ atoms, a.charge.isFinite = true
  mass_isFinite : ∀ a ∈ atoms, a.mass.isFinite = true
  position_isFinite : ∀ a ∈ atoms, a.position.isFinite = true
  velocity_isFinite : ∀ a ∈ atoms, a.velocity.isFinite = true
  element_ne_nil : ∀ a ∈ atoms, a.element.toList ≠ []
  element_trimmed : ∀ a ∈ atoms, Text.trim a.element.toList = a.element.toList
  element_line : ∀ a ∈ atoms, '\n' ∉ a.element.toList
  mass_pos : ∀ a ∈ atoms, 0 < a.mass.rounded 4 ∨ Element.ofSymbol? a.element = none
  shared : ∀ p ∈ atoms.zip (typeIds atoms), ∀ q ∈ atoms.zip (typeIds atoms), p.2 = q.2 →
    p.1.element = q.1.element ∧ massBack p.1.mass = massBack q.1.mass

/-- Atoms whose data file can be read: counts have sixty-four bits, and elements are labels. The
numbers may be any. -/
structure IsStorable (atoms : List (Atom Double)) : Prop where
  length_lt : atoms.length < 2 ^ 64
  id_lt : ∀ a ∈ atoms, a.id < 2 ^ 64
  molecule_lt : ∀ a ∈ atoms, a.molecule < 2 ^ 64
  type_lt : ∀ a ∈ atoms, a.type < 2 ^ 64
  isLabel : ∀ a ∈ atoms, IsLabel a.element

theorem IsWritable.isStorable (h : IsWritable atoms) : IsStorable atoms where
  length_lt := h.length_lt
  id_lt := h.id_lt
  molecule_lt := h.molecule_lt
  type_lt := h.type_lt
  isLabel a ha := ⟨h.element_ne_nil a ha, h.element_trimmed a ha, h.element_line a ha⟩

/-- What comes back of atoms that are written: as many atoms in the same order. Ids are given anew
when one is zero or occurs twice, and types when one is zero. -/
structure IsReadBack (atoms back : List (Atom Double)) : Prop where
  elements : back.map (·.element) = atoms.map (·.element)
  molecules : back.map (·.molecule) = atoms.map (·.molecule)
  ids_kept : (atoms.map (·.id)).Nodup → (∀ a ∈ atoms, a.id ≠ 0) →
    back.map (·.id) = atoms.map (·.id)
  ids_given : ¬((atoms.map (·.id)).Nodup ∧ ∀ a ∈ atoms, a.id ≠ 0) →
    back.map (·.id) = List.range' 1 atoms.length
  types_kept : (∀ a ∈ atoms, a.type ≠ 0) → back.map (·.type) = atoms.map (·.type)
  types_given : ¬(∀ a ∈ atoms, a.type ≠ 0) →
    back.map (·.type) = firstAppearance (atoms.map (·.element))
  charges : back.map (·.charge) = atoms.map (·.charge.rounded 6)
  masses : back.map (·.mass) = atoms.map fun a => massBack a.mass
  positions : back.map (·.position) = atoms.map (·.position.map (·.rounded 8))
  velocities_moving : (∃ a ∈ atoms, (a.velocity == 0) = false) →
    back.map (·.velocity) = atoms.map (·.velocity.map (·.rounded 8))
  velocities_resting : (∀ a ∈ atoms, (a.velocity == 0) = true) →
    back.map (·.velocity) = atoms.map fun _ => 0

/-! ## Ids and types -/

theorem keepsIds_iff :
    (allDistinct (atoms.map (·.id)) && !(atoms.map (·.id)).contains 0) = true ↔
      (atoms.map (·.id)).Nodup ∧ ∀ a ∈ atoms, a.id ≠ 0 := by
  rw [Bool.and_eq_true, allDistinct_iff]
  simp

theorem writtenIds_of_kept (h : (atoms.map (·.id)).Nodup ∧ ∀ a ∈ atoms, a.id ≠ 0) :
    writtenIds atoms = atoms.map (·.id) := by
  unfold writtenIds
  dsimp only
  rw [if_pos (keepsIds_iff.2 h)]

theorem writtenIds_of_given (h : ¬((atoms.map (·.id)).Nodup ∧ ∀ a ∈ atoms, a.id ≠ 0)) :
    writtenIds atoms = List.range' 1 atoms.length := by
  unfold writtenIds
  dsimp only
  rw [if_neg (keepsIds_iff.not.2 h), List.length_map]

/-- No id is written twice. -/
theorem nodup_writtenIds : (writtenIds atoms).Nodup := by
  by_cases h : (atoms.map (·.id)).Nodup ∧ ∀ a ∈ atoms, a.id ≠ 0
  · rw [writtenIds_of_kept h]
    exact h.1
  · rw [writtenIds_of_given h]
    exact List.nodup_range'

theorem typeIds_of_kept (h : ∀ a ∈ atoms, a.type ≠ 0) : typeIds atoms = atoms.map (·.type) := by
  have hpos : (atoms.all fun a => 0 < a.type) = true := by
    simpa [Nat.pos_iff_ne_zero] using h
  rw [typeIds, if_pos hpos]

theorem typeIds_of_given (h : ¬∀ a ∈ atoms, a.type ≠ 0) :
    typeIds atoms = firstAppearance (atoms.map (·.element)) := by
  have hpos : ¬(atoms.all fun a => 0 < a.type) = true := by
    simpa [Nat.pos_iff_ne_zero] using h
  rw [typeIds, if_neg hpos]

theorem IsStorable.writtenId_lt (h : IsStorable atoms) {id : Nat} (hid : id ∈ writtenIds atoms) :
    id < 2 ^ 64 := by
  by_cases hkept : (atoms.map (·.id)).Nodup ∧ ∀ a ∈ atoms, a.id ≠ 0
  · rw [writtenIds_of_kept hkept] at hid
    obtain ⟨a, ha, rfl⟩ := List.mem_map.1 hid
    exact h.id_lt a ha
  · rw [writtenIds_of_given hkept, List.mem_range'_1] at hid
    have hlength := h.length_lt
    omega

theorem IsStorable.typeId_lt (h : IsStorable atoms) {t : Nat} (ht : t ∈ typeIds atoms) :
    t < 2 ^ 64 := by
  by_cases hkept : ∀ a ∈ atoms, a.type ≠ 0
  · rw [typeIds_of_kept hkept] at ht
    obtain ⟨a, ha, rfl⟩ := List.mem_map.1 ht
    exact h.type_lt a ha
  · rw [typeIds_of_given hkept] at ht
    have hle := (bounds_of_mem_numberAfter ht).2
    rw [List.length_map, List.length_nil, Nat.zero_add] at hle
    exact hle.trans_lt h.length_lt

/-- An atom of the rows stands in both pairings. -/
theorem mem_of_mem_writtenRows {row : Atom Double × Nat × Nat} (h : row ∈ writtenRows atoms) :
    row.1 ∈ atoms ∧ (row.1, row.2.1) ∈ atoms.zip (writtenIds atoms) ∧
      (row.1, row.2.2) ∈ atoms.zip (typeIds atoms) := by
  obtain ⟨i, hi, rfl⟩ := List.getElem_of_mem h
  have hlength := hi
  unfold writtenRows at hlength
  rw [List.length_zip, List.length_zip] at hlength
  have hatom : i < atoms.length := by omega
  have hid : i < (writtenIds atoms).length := by omega
  have htype : i < (typeIds atoms).length := by omega
  have hrow : (writtenRows atoms)[i] = (atoms[i], (writtenIds atoms)[i], (typeIds atoms)[i]) := by
    simp [writtenRows]
  rw [hrow]
  refine ⟨List.getElem_mem hatom, ?_, ?_⟩
  · rw [List.mem_iff_getElem]
    exact ⟨i, by simp [hatom, hid], by simp⟩
  · rw [List.mem_iff_getElem]
    exact ⟨i, by simp [hatom, htype], by simp⟩

/-! ## The end of the text -/

/-- Some atom moves, so that velocities are written. -/
def IsMoving (atoms : List (Atom Double)) : Prop :=
  ∃ a ∈ atoms, (a.velocity == 0) = false

/-- The rows of the table can be read. -/
theorem IsStorable.isMassRow (h : IsStorable atoms) {row : Nat × Double × String}
    (hrow : row ∈ (massTable atoms).toList) : Draft.IsMassRow row := by
  obtain ⟨a, hmem, hvalue⟩ := exists_of_mem_massTable hrow
  obtain ⟨ha, ht⟩ := List.of_mem_zip hmem
  rw [Prod.ext_iff] at hvalue
  refine ⟨h.typeId_lt ht, ?_⟩
  rw [hvalue.2]
  exact h.isLabel a ha

/-- The rows of the atoms can be read. -/
theorem IsStorable.isAtomRow (h : IsStorable atoms) {row : Atom Double × Nat × Nat}
    (hrow : row ∈ writtenRows atoms) : Draft.IsAtomRow row := by
  obtain ⟨ha, hid, ht⟩ := mem_of_mem_writtenRows hrow
  exact ⟨h.writtenId_lt (List.of_mem_zip hid).2, h.molecule_lt row.1 ha,
    h.typeId_lt (List.of_mem_zip ht).2⟩

open Draft in
/-- **What the reader knows at the end of the text.** -/
theorem exists_reads_write (h : IsStorable atoms) (comment : String) (padding : Double) :
    ∃ d, Reads {} (Text.lines (write atoms comment padding).toList).tail d ∧
      d.declared = some atoms.length ∧
      d.masses = (∅ : Std.TreeMap Nat MassLine).insertMany
        ((massTable atoms).toList.map massEntry) ∧
      d.atomLines = ((writtenRows atoms).map atomEntry).reverse ∧
      (IsMoving atoms → d.velocities = (∅ : Std.TreeMap Nat (Vec3 Double)).insertMany
        ((atoms.zip (writtenIds atoms)).map velocityEntry)) ∧
      (¬IsMoving atoms → d.velocities = ∅) := by
  have hmasses : ∀ row ∈ (massTable atoms).toList, IsMassRow row := fun row hrow => h.isMassRow hrow
  have hreturns : ((massTable atoms).toList.map massRow).map Text.dropReturn =
      (massTable atoms).toList.map massRow := by
    rw [List.map_map]
    exact List.map_congr_left fun row hrow => dropReturn_massRow (hmasses row hrow)
  have hatoms : ∀ row ∈ writtenRows atoms, IsAtomRow row := fun row hrow => h.isAtomRow hrow
  have hids : ∀ row ∈ atoms.zip (writtenIds atoms), row.2 < 2 ^ 64 :=
    fun row hrow => h.writtenId_lt (List.of_mem_zip hrow).2
  obtain ⟨d, hd, hhead⟩ := exists_reads_headRows h.length_lt padding
  have hbefore := (hhead.append (reads_masses hmasses d)).append (reads_atoms hatoms _)
  rw [lines_write fun a ha => (h.isLabel a ha).feed_notMem, hreturns, List.tail_cons]
  by_cases hmoving : IsMoving atoms
  · have hany : (atoms.any fun a => !(a.velocity == 0)) = true := by
      simpa [IsMoving] using hmoving
    have hall := hbefore.append (reads_velocities hids _)
    rw [velocityRows, if_pos hany]
    refine ⟨_, hall, hd.declared_eq, ?_, ?_, fun _ => ?_, fun hresting => absurd hmoving hresting⟩
    · rw [← hd.masses_eq]
    · rw [hd.atomLines_eq, List.append_nil]
    · rw [← hd.velocities_eq]
  · have hany : ¬(atoms.any fun a => !(a.velocity == 0)) = true := by
      simpa [IsMoving] using hmoving
    rw [velocityRows, if_neg hany, List.append_nil]
    refine ⟨_, hbefore, hd.declared_eq, ?_, ?_, fun hmove => absurd hmove hmoving,
      fun _ => hd.velocities_eq⟩
    · rw [← hd.masses_eq]
    · rw [hd.atomLines_eq, List.append_nil]

/-- **What the reader gives** once it knows the declared atoms. -/
theorem read_write_eq (h : IsStorable atoms) {comment : String} {padding : Double} {d : Draft}
    (hreads : Draft.Reads {} (Text.lines (write atoms comment padding).toList).tail d)
    (hdeclared : d.declared = some atoms.length)
    (hatomLines : d.atomLines = ((writtenRows atoms).map Draft.atomEntry).reverse) :
    read (write atoms comment padding) = .ok ⟨d.atoms,
      String.ofList (Text.trim (Text.dropReturn (oneLine comment).toList)), d.lattice?⟩ := by
  have hlength : (writtenRows atoms).length = atoms.length := by
    have hatoms := congrArg List.length (columns_writtenRows atoms).1
    rwa [List.length_map] at hatoms
  have hcomplete : d.isComplete = true := by
    rw [Draft.isComplete, hdeclared, hatomLines, List.length_reverse, List.length_map, hlength]
    exact beq_self_eq_true _
  have hcomment : (Text.lines (write atoms comment padding).toList).headD [] =
      Text.dropReturn (oneLine comment).toList := by
    rw [lines_write fun a ha => (h.isLabel a ha).feed_notMem, List.headD_cons]
  unfold read
  dsimp only
  rw [hreads.addLines_eq 2]
  change (if d.isComplete = true then _ else _) = _
  rw [if_pos hcomplete, hcomment]
  rfl

/-! ## The atoms that come back -/

/-- The mass and the label of a type are those of the first atom of the type. -/
theorem exists_first_of_mem {d : Draft}
    (hmasses : d.masses = (∅ : Std.TreeMap Nat MassLine).insertMany
      ((massTable atoms).toList.map Draft.massEntry))
    {row : Atom Double × Nat × Nat} (hrow : row ∈ writtenRows atoms) :
    ∃ first ∈ atoms.zip (typeIds atoms), first.2 = row.2.2 ∧
      d.masses[row.2.2]? = some ⟨first.1.mass.restored 4, some first.1.element⟩ := by
  obtain ⟨-, -, hrow⟩ := mem_of_mem_writtenRows hrow
  obtain ⟨first, hmem, htype, htable⟩ : ∃ first ∈ atoms.zip (typeIds atoms),
      first.2 = row.2.2 ∧ (massTable atoms)[row.2.2]? = some (first.1.mass, first.1.element) := by
    rw [getElem?_massTable]
    cases hfind : (atoms.zip (typeIds atoms)).find? (·.2 == row.2.2) with
    | none =>
      have hnone := List.find?_eq_none.1 hfind _ hrow
      simp at hnone
    | some first =>
      refine ⟨first, List.mem_of_find?_eq_some hfind, ?_, rfl⟩
      simpa using List.find?_some hfind
  refine ⟨first, hmem, htype, ?_⟩
  have hentry : (row.2.2, ⟨first.1.mass.restored 4, some first.1.element⟩) ∈
      (massTable atoms).toList.map Draft.massEntry := by
    rw [← Std.TreeMap.mem_toList_iff_getElem?_eq_some] at htable
    exact List.mem_map_of_mem htable
  have hkeys : (((massTable atoms).toList.map Draft.massEntry).map Prod.fst).Nodup := by
    rw [List.map_map]
    change ((massTable atoms).toList.map Prod.fst).Nodup
    rw [Std.TreeMap.map_fst_toList_eq_keys]
    exact Std.TreeMap.nodup_keys
  rw [hmasses, getElem?_insertMany_of_mem hkeys hentry]

/-- The mass and the label of a type are those of any atom of the type. -/
theorem exists_mass_of_mem (h : IsWritable atoms) {d : Draft}
    (hmasses : d.masses = (∅ : Std.TreeMap Nat MassLine).insertMany
      ((massTable atoms).toList.map Draft.massEntry))
    {row : Atom Double × Nat × Nat} (hrow : row ∈ writtenRows atoms) :
    ∃ mass : Double, d.masses[row.2.2]? = some ⟨mass.rounded 4, some row.1.element⟩ ∧
      massBack mass = massBack row.1.mass := by
  obtain ⟨first, hmem, htype, hfirst⟩ := exists_first_of_mem hmasses hrow
  obtain ⟨helement, hmass⟩ := h.shared first hmem _ (mem_of_mem_writtenRows hrow).2.2 htype
  have hfinite := h.mass_isFinite first.1 (List.of_mem_zip hmem).1
  refine ⟨first.1.mass, ?_, hmass⟩
  rw [hfirst, Double.restored_of_isFinite 4 hfinite, helement]

/-- Finite numbers are restored to what they are rounded to. -/
theorem map_restored_of_isFinite {v : Vec3 Double} (h : v.isFinite = true) (places : Nat) :
    v.map (·.restored places) = v.map (·.rounded places) := by
  have hall : ((v.x.isFinite && v.y.isFinite) && v.z.isFinite) = true := h
  obtain ⟨hx, hy, hz⟩ : v.x.isFinite = true ∧ v.y.isFinite = true ∧ v.z.isFinite = true := by
    simpa [Bool.and_eq_true, and_assoc] using hall
  rw [Vec3.map, Vec3.map, Double.restored_of_isFinite places hx,
    Double.restored_of_isFinite places hy, Double.restored_of_isFinite places hz]

/-- The velocity of an id is that of its atom. -/
theorem getElem?_velocities (h : IsWritable atoms) {d : Draft}
    (hvelocities : d.velocities = (∅ : Std.TreeMap Nat (Vec3 Double)).insertMany
      ((atoms.zip (writtenIds atoms)).map Draft.velocityEntry))
    {row : Atom Double × Nat × Nat} (hrow : row ∈ writtenRows atoms) :
    d.velocities[row.2.1]? = some (row.1.velocity.map (·.rounded 8)) := by
  obtain ⟨ha, hrow, -⟩ := mem_of_mem_writtenRows hrow
  have hentry : (row.2.1, row.1.velocity.map (·.restored 8)) ∈
      (atoms.zip (writtenIds atoms)).map Draft.velocityEntry :=
    List.mem_map_of_mem hrow
  have hkeys : (((atoms.zip (writtenIds atoms)).map Draft.velocityEntry).map Prod.fst).Nodup := by
    rw [List.map_map]
    change ((atoms.zip (writtenIds atoms)).map Prod.snd).Nodup
    rw [List.map_snd_zip (by rw [length_writtenIds])]
    exact nodup_writtenIds
  rw [hvelocities, getElem?_insertMany_of_mem hkeys hentry,
    map_restored_of_isFinite (h.velocity_isFinite row.1 ha)]

/-- The atom that comes back of a row. -/
def rowBack (velocity : Vec3 Double → Vec3 Double) (row : Atom Double × Nat × Nat) :
    Atom Double where
  id := row.2.1
  element := row.1.element
  atomicNumber := atomicNumberOf row.1.element
  position := row.1.position.map (·.rounded 8)
  velocity := velocity row.1.velocity
  charge := row.1.charge.rounded 6
  mass := massBack row.1.mass
  molecule := row.1.molecule
  type := row.2.2
  surroundings := none
  frameLink := none
  poav := none

/-- **What the reader makes of the line of an atom.** -/
theorem atomOf_atomEntry (h : IsWritable atoms) {d : Draft}
    (hmasses : d.masses = (∅ : Std.TreeMap Nat MassLine).insertMany
      ((massTable atoms).toList.map Draft.massEntry))
    {row : Atom Double × Nat × Nat} (hrow : row ∈ writtenRows atoms)
    {velocity : Vec3 Double → Vec3 Double}
    (hvelocity : (d.velocities[row.2.1]?).getD 0 = velocity row.1.velocity) :
    d.atomOf (Draft.atomEntry row) = rowBack velocity row := by
  obtain ⟨mass, hmass, hback⟩ := exists_mass_of_mem h hmasses hrow
  obtain ⟨ha, -⟩ := mem_of_mem_writtenRows hrow
  have hread : (if 0 < mass.rounded 4 then some (mass.rounded 4) else none).getD
      (standardMassOf row.1.element) = massBack row.1.mass := by
    by_cases hpos : 0 < mass.rounded 4
    · rw [if_pos hpos, ← hback, massBack, if_pos hpos]
      rfl
    · have hzero : massBack row.1.mass = 0 := by
        rw [← hback, massBack, if_neg hpos]
      rcases h.mass_pos row.1 ha with hown | hunknown
      · -- the atom's own mass comes back as zero too
        rw [massBack, if_pos hown] at hzero
        rw [hzero] at hown
        exact absurd hown (by decide +kernel)
      · rw [if_neg hpos, hzero, Option.getD_none, standardMassOf, hunknown]
  rw [Draft.atomOf, Draft.atomEntry, Double.restored_of_isFinite 6 (h.charge_isFinite row.1 ha),
    map_restored_of_isFinite (h.position_isFinite row.1 ha)]
  dsimp only
  rw [hmass]
  simp only [AtomSpec.build, Option.getD_some, Draft.elementOf, hvelocity, hread]
  rfl

/-- The rows come back as what was written of them. -/
theorem isReadBack_rows {velocity : Vec3 Double → Vec3 Double}
    (hmoving : IsMoving atoms → velocity = fun v => v.map (·.rounded 8))
    (hresting : ¬IsMoving atoms → velocity = fun _ => 0) :
    IsReadBack atoms ((writtenRows atoms).map (rowBack velocity)) := by
  obtain ⟨hatoms, hids, htypes⟩ := columns_writtenRows atoms
  have hcolumn : ∀ {β : Type} (view : Atom Double → β) (f : Atom Double → β),
      (∀ row, view (rowBack velocity row) = f row.1) →
        ((writtenRows atoms).map (rowBack velocity)).map view = atoms.map f := by
    intro β view f hview
    conv_rhs => rw [← hatoms]
    rw [List.map_map, List.map_map]
    exact List.map_congr_left fun row _ => hview row
  have hid : ((writtenRows atoms).map (rowBack velocity)).map (·.id) = writtenIds atoms := by
    rw [List.map_map]
    exact hids
  have htype : ((writtenRows atoms).map (rowBack velocity)).map (·.type) = typeIds atoms := by
    rw [List.map_map]
    exact htypes
  exact {
    elements := hcolumn _ _ fun _ => rfl
    molecules := hcolumn _ _ fun _ => rfl
    ids_kept := fun hnodup hne => by rw [hid, writtenIds_of_kept ⟨hnodup, hne⟩]
    ids_given := fun h => by rw [hid, writtenIds_of_given h]
    types_kept := fun h => by rw [htype, typeIds_of_kept h]
    types_given := fun h => by rw [htype, typeIds_of_given h]
    charges := hcolumn _ _ fun _ => rfl
    masses := hcolumn _ _ fun _ => rfl
    positions := hcolumn _ _ fun _ => rfl
    velocities_moving := fun h => hcolumn _ _ fun row => by rw [rowBack, hmoving h]
    velocities_resting := fun h => hcolumn _ _ fun row => by
      have hrest : ¬IsMoving atoms := by
        rintro ⟨a, ha, hmoves⟩
        rw [h a ha] at hmoves
        cases hmoves
      rw [rowBack, hresting hrest] }

/-- **What is written is read again**: all atoms in their order, with their numbers rounded to the
decimals that are written, and the comment on one line without blanks around it. -/
theorem read_write (h : IsWritable atoms) (comment : String) (padding : Double) :
    ∃ file, read (write atoms comment padding) = .ok file ∧ IsReadBack atoms file.atoms ∧
      file.comment = String.ofList
        (Text.trim (comment.toList.map fun c => if c = '\n' then ' ' else c)) := by
  obtain ⟨d, hreads, hdeclared, hmasses, hatomLines, hmoving, hresting⟩ :=
    exists_reads_write h.isStorable comment padding
  have hread := read_write_eq h.isStorable hreads hdeclared hatomLines
  -- the velocity that the reader finds under the id of an atom
  obtain ⟨velocity, hvelocity, hmoves, hrests⟩ : ∃ velocity : Vec3 Double → Vec3 Double,
      (∀ row ∈ writtenRows atoms, (d.velocities[row.2.1]?).getD 0 = velocity row.1.velocity) ∧
      (IsMoving atoms → velocity = fun v => v.map (·.rounded 8)) ∧
      (¬IsMoving atoms → velocity = fun _ => 0) := by
    by_cases hmove : IsMoving atoms
    · refine ⟨fun v => v.map (·.rounded 8), fun row hrow => ?_, fun _ => rfl,
        fun hrest => absurd hmove hrest⟩
      rw [getElem?_velocities h (hmoving hmove) hrow]
      rfl
    · refine ⟨fun _ => 0, fun row _ => ?_, fun hmove' => absurd hmove' hmove, fun _ => rfl⟩
      rw [hresting hmove]
      rfl
  have hatoms : d.atoms = (writtenRows atoms).map (rowBack velocity) := by
    rw [Draft.atoms, hatomLines, List.reverse_reverse, List.map_map]
    refine List.map_congr_left fun row hrow => ?_
    exact atomOf_atomEntry h hmasses hrow (hvelocity row hrow)
  refine ⟨_, hread, ?_, ?_⟩
  · change IsReadBack atoms d.atoms
    rw [hatoms]
    exact isReadBack_rows hmoves hrests
  · rw [Text.trim_dropReturn, oneLine, String.toList_map]

/-- Three atoms: two have one id, one has a type already, one moves, and one is of an element that
is not known and has a hash sign in its name. -/
def taggedAtoms : List (Atom Double) :=
  [{ Atom.placed "C" ⟨0.5, 0, 0⟩ with id := 7, velocity := ⟨1, 0, 0⟩ },
    { Atom.placed "C#2" ⟨0, 1.25, 0⟩ with id := 7, charge := -0.5 },
    { Atom.placed "C" ⟨0, 0, 1.5⟩ with id := 3, type := 2 }]

theorem isWritable_taggedAtoms : IsWritable taggedAtoms where
  length_lt := by decide
  id_lt := by decide
  molecule_lt := by decide
  type_lt := by decide
  charge_isFinite := by decide +kernel
  mass_isFinite := by decide +kernel
  position_isFinite := by decide +kernel
  velocity_isFinite := by decide +kernel
  element_ne_nil := by decide
  element_trimmed := by decide
  element_line := by decide
  mass_pos := by decide +kernel
  shared := by
    have helement : ∀ p ∈ taggedAtoms.zip (typeIds taggedAtoms),
        ∀ q ∈ taggedAtoms.zip (typeIds taggedAtoms), p.2 = q.2 → p.1.element = q.1.element := by
      decide
    have hmass : ∀ a ∈ taggedAtoms, a.mass = standardMassOf a.element := by
      simp [taggedAtoms, Atom.placed, AtomSpec.build]
    intro p hp q hq htype
    have hsame := helement p hp q hq htype
    refine ⟨hsame, ?_⟩
    rw [hmass p.1 (List.of_mem_zip hp).1, hmass q.1 (List.of_mem_zip hq).1, hsame]

/-- All ids are given anew, and all types. -/
theorem read_write_tagged :
    ∃ file, read (write taggedAtoms "two\nlines " usualPadding) = .ok file ∧
      file.atoms.map (·.id) = [1, 2, 3] ∧ file.atoms.map (·.type) = [1, 2, 1] ∧
      file.atoms.map (·.element) = ["C", "C#2", "C"] ∧
      file.atoms.map (·.velocity.x.bits) = [(1 : Double).bits, 0, 0] ∧
      file.comment = "two lines" := by
  obtain ⟨file, hread, hback, hcomment⟩ :=
    read_write isWritable_taggedAtoms "two\nlines " usualPadding
  have hvelocities := congrArg (List.map (·.x.bits)) (hback.velocities_moving (by decide +kernel))
  rw [List.map_map, List.map_map] at hvelocities
  refine ⟨file, hread, hback.ids_given (by decide), ?_, hback.elements, ?_, ?_⟩
  · exact (hback.types_given (by decide)).trans (by decide)
  · exact hvelocities.trans (by decide +kernel)
  · exact hcomment.trans (by decide)

end Honeycomb.LammpsData
