import Mathlib
import Honeycomb.Proofs.File.Access
import Honeycomb.Proofs.File.DataAccepted
import Honeycomb.Proofs.File.XyzRoundTrip

/-!
# Conversions

* `IsKept` — atoms that come back in their order, with their elements and with coordinates rounded
  to eight decimals.
* `LammpsData.exists_read_write` — a data file keeps atoms of which those of one type are of one
  element, as those of any file are. An XYZ file keeps atoms whose elements are fields.
* `exists_isKept_iff` — when a format keeps the atoms of a file. `run_convertStructure_iff` — what a
  conversion does.

Principal result: `convert_keeps_iff` — when a conversion keeps the structure.
-/

set_option autoImplicit false

namespace Honeycomb

variable {atoms : List (Atom Double)}

/-- What a conversion keeps of atoms: as many atoms in the same order, their elements, and their
coordinates with eight decimals. -/
structure IsKept (atoms back : List (Atom Double)) : Prop where
  elements : back.map (·.element) = atoms.map (·.element)
  positions : back.map (·.position) = atoms.map (·.position.map (·.restored 8))

/-- Atoms of one type are of one element. -/
def IsTyped (atoms : List (Atom Double)) : Prop :=
  ∀ a ∈ atoms, ∀ b ∈ atoms, a.type = b.type → a.element = b.element

namespace LammpsData

/-- Also those of one type that is written. -/
theorem element_eq_of_typeIds (h : IsTyped atoms) {p q : Atom Double × Nat}
    (hp : p ∈ atoms.zip (typeIds atoms)) (hq : q ∈ atoms.zip (typeIds atoms)) (htype : p.2 = q.2) :
    p.1.element = q.1.element := by
  by_cases hkept : ∀ a ∈ atoms, a.type ≠ 0
  · have hown : ∀ r ∈ atoms.zip (typeIds atoms), r.1 ∈ atoms ∧ r.2 = r.1.type := by
      intro r hr
      rw [typeIds_of_kept hkept, ← List.map_prod_left_eq_zip] at hr
      obtain ⟨a, ha, rfl⟩ := List.mem_map.1 hr
      exact ⟨ha, rfl⟩
    obtain ⟨hpmem, hptype⟩ := hown p hp
    obtain ⟨hqmem, hqtype⟩ := hown q hq
    exact h p.1 hpmem q.1 hqmem (by rw [← hptype, ← hqtype, htype])
  · have hlabel : ∀ r ∈ atoms.zip (typeIds atoms),
        (r.1.element, r.2) ∈
          (atoms.map (·.element)).zip (firstAppearance (atoms.map (·.element))) := by
      intro r hr
      rw [typeIds_of_given hkept] at hr
      rw [List.zip_map_left]
      exact List.mem_map_of_mem hr
    exact eq_of_firstAppearance (hlabel p hp) (hlabel q hq) htype

/-- **A data file keeps atoms of which those of one type are of one element.** -/
theorem exists_read_write (h : IsStorable atoms) (htyped : IsTyped atoms) (comment : String)
    (padding : Double) :
    ∃ file, read (write atoms comment padding) = .ok file ∧ IsKept atoms file.atoms := by
  obtain ⟨d, hreads, hdeclared, hmasses, hatomLines, -⟩ := exists_reads_write h comment padding
  refine ⟨_, read_write_eq h hreads hdeclared hatomLines, ?_⟩
  have hatoms : d.atoms = (writtenRows atoms).map fun row => d.atomOf (Draft.atomEntry row) := by
    rw [Draft.atoms, hatomLines, List.reverse_reverse, List.map_map]
    rfl
  have hcolumn : ∀ {β : Type} {view f : Atom Double → β},
      (∀ row ∈ writtenRows atoms, view (d.atomOf (Draft.atomEntry row)) = f row.1) →
        d.atoms.map view = atoms.map f := by
    intro β view f hview
    conv_rhs => rw [← (columns_writtenRows atoms).1]
    rw [hatoms, List.map_map, List.map_map]
    exact List.map_congr_left hview
  refine ⟨hcolumn ?_, hcolumn fun _ _ => rfl⟩
  intro row hrow
  obtain ⟨first, hfirst, htype, hmass⟩ := exists_first_of_mem hmasses hrow
  have helement : (d.atomOf (Draft.atomEntry row)).element =
      Draft.elementOf ((d.masses[row.2.2]?).getD ⟨0, none⟩) :=
    rfl
  rw [helement, hmass]
  exact element_eq_of_typeIds htyped hfirst (mem_of_mem_writtenRows hrow).2.2 htype

end LammpsData

namespace Xyz

theorem IsRead.type_eq (h : IsRead atoms) {a : Atom Double} (ha : a ∈ atoms) :
    a.type = (atoms.map (·.element)).eraseDups.idxOf a.element + 1 :=
  List.map_inj_left.1 h.types a ha

theorem IsRead.isTyped (h : IsRead atoms) : IsTyped atoms := by
  intro a ha b hb htype
  rw [h.type_eq ha, h.type_eq hb] at htype
  have hmem : a.element ∈ (atoms.map (·.element)).eraseDups :=
    List.mem_eraseDups.2 (List.mem_map_of_mem ha)
  exact (List.idxOf_inj hmem).1 (Nat.succ.inj htype)

/-- The atoms of an XYZ file can be written to a data file. -/
theorem IsRead.isStorable (h : IsRead atoms) (hlength : atoms.length < 2 ^ 64) :
    LammpsData.IsStorable atoms := by
  refine ⟨hlength, ?_, ?_, ?_, ?_⟩
  · intro a ha
    have hid : a.id ∈ List.range' 1 atoms.length := h.ids ▸ List.mem_map_of_mem ha
    rw [List.mem_range'_1] at hid
    omega
  · intro a ha
    rw [h.molecules a ha]
    decide
  · intro a ha
    have htype : a.type ∈ firstAppearance (atoms.map (·.element)) := by
      rw [firstAppearance_eq, h.type_eq ha]
      exact List.mem_map_of_mem (List.mem_map_of_mem ha)
    have hle := (LammpsData.bounds_of_mem_numberAfter htype).2
    rw [List.length_map, List.length_nil, Nat.zero_add] at hle
    exact hle.trans_lt hlength
  · intro a ha
    exact LammpsData.isLabel_of_isWord (h.isElementField a ha).isWord

theorem IsReadBack.isKept {back : List (Atom Double)} (h : IsReadBack atoms back) :
    IsKept atoms back :=
  ⟨h.elements, h.positions⟩

end Xyz

/-! ## Formats -/

section

variable {f : FileFormat} {decode : String → Except (Error Double) StructureFile}
  {encode : List (Atom Double) → String → String} {text : String} {s : StructureFile}

/-- The atoms of any file can be written to a data file, which keeps them. -/
theorem isStorable_of_decode (hdecode : f.decode? = some decode) (h : decode text = .ok s)
    (hlength : s.atoms.length < 2 ^ 64) : LammpsData.IsStorable s.atoms ∧ IsTyped s.atoms := by
  cases f with
  | xyz =>
    obtain rfl := Option.some.inj hdecode
    obtain ⟨hread, -⟩ := Xyz.isRead_of_read h
    exact ⟨hread.isStorable hlength, hread.isTyped⟩
  | data =>
    obtain rfl := Option.some.inj hdecode
    exact ⟨LammpsData.isStorable_of_read h hlength,
      fun _ ha _ hb htype => LammpsData.element_eq_of_read h ha hb htype⟩
  | dump => cases hdecode

/-- An XYZ file keeps atoms just when their elements are fields. -/
theorem exists_isKept_xyz_iff (hlength : atoms.length < 2 ^ 64) (comment : String) :
    (∃ back, Xyz.read (Xyz.write atoms comment) = .ok back ∧ IsKept atoms back.atoms) ↔
      ∀ a ∈ atoms, Xyz.IsElementField a.element := by
  constructor
  · rintro ⟨back, hback, hkept⟩ a ha
    obtain ⟨hread, -⟩ := Xyz.isRead_of_read hback
    have hmem : a.element ∈ back.atoms.map (·.element) := by
      rw [hkept.elements]
      exact List.mem_map_of_mem ha
    obtain ⟨b, hb, helement⟩ := List.mem_map.1 hmem
    rw [← helement]
    exact hread.isElementField b hb
  · intro helements
    have hback := Xyz.read_write_eq hlength helements comment
    exact ⟨_, hback, (Xyz.isReadBack_rowsBack atoms).isKept⟩

/-- **When a format keeps atoms of a file**: a data file always, an XYZ file when the elements are
fields. -/
theorem exists_isKept_iff (hdecode : f.decode? = some decode) (hencode : f.encode? = some encode)
    (h : LammpsData.IsStorable atoms) (htyped : IsTyped atoms) (comment : String) :
    (∃ back, decode (encode atoms comment) = .ok back ∧ IsKept atoms back.atoms) ↔
      (f = .xyz → ∀ a ∈ atoms, Xyz.IsElementField a.element) := by
  cases f with
  | xyz =>
    obtain rfl := Option.some.inj hdecode
    obtain rfl := Option.some.inj hencode
    rw [exists_isKept_xyz_iff h.length_lt]
    simp
  | data =>
    obtain rfl := Option.some.inj hdecode
    obtain rfl := Option.some.inj hencode
    have hback := LammpsData.exists_read_write h htyped comment LammpsData.usualPadding
    simp [hback]
  | dump => cases hdecode

end

/-! ## Conversions -/

/-- **A conversion** that succeeds has read a structure and written it. -/
theorem run_convertStructure_iff {tree next : FileTree} {s : StructureFile} {input output : String}
    {source target : Option FileFormat} :
    Id.run ((convertStructure FileTree.access input output source target).run tree) =
        (.ok s, next) ↔
      Id.run ((readStructure FileTree.access input source).run tree) = (.ok s, tree) ∧
        Id.run ((writeStructure FileTree.access output s.atoms target s.comment).run tree) =
          (.ok (), next) := by
  unfold convertStructure
  simp only [StateT.run_bind, Id.run_bind]
  rcases hread : Id.run ((readStructure FileTree.access input source).run tree) with ⟨result, tree'⟩
  cases result with
  | error e => simp
  | ok read =>
    obtain ⟨rfl, -⟩ := run_readStructure_iff.1 hread
    dsimp only
    rw [StateT.run_bind, Id.run_bind]
    rcases hwrite : Id.run ((writeStructure FileTree.access output read.atoms target
      read.comment).run tree) with ⟨written, next'⟩
    constructor
    · intro h
      cases written with
      | error e => simp [Except.map] at h
      | ok _ =>
        obtain ⟨rfl, rfl⟩ : read = s ∧ next' = next := by simpa [Except.map] using h
        exact ⟨rfl, hwrite⟩
    · rintro ⟨hsame, hnext⟩
      obtain rfl : read = s := by simpa using hsame
      rw [hwrite] at hnext
      obtain ⟨rfl, rfl⟩ : written = .ok () ∧ next' = next := by simpa using hnext
      rfl

/-- **When a conversion keeps the structure.** What was read is read again of what was written, with
all atoms in order, their elements and their coordinates, unless a data file is turned into an XYZ
file and a label of it is no field: one with a blank in it, or one that is the number of an
element. -/
theorem convert_keeps_iff {tree next : FileTree} {input output : String}
    {source target : Option FileFormat} {s : StructureFile}
    (h : Id.run ((convertStructure FileTree.access input output source target).run tree) =
      (.ok s, next)) (hlength : s.atoms.length < 2 ^ 64) :
    Id.run ((readStructure FileTree.access input source).run tree) = (.ok s, tree) ∧
      ((∃ back, Id.run ((readStructure FileTree.access output target).run next) =
          (.ok back, next) ∧ IsKept s.atoms back.atoms) ↔
        (FileFormat.resolve input source = .ok .data →
          FileFormat.resolve output target = .ok .xyz →
            ∀ a ∈ s.atoms, Xyz.IsElementField a.element)) := by
  obtain ⟨hread, hwrite⟩ := run_convertStructure_iff.1 h
  obtain ⟨-, f, decode, text, hf, hdecode, -, hs⟩ := run_readStructure_iff.1 hread
  obtain ⟨g, encode, hg, hencode, hnext⟩ := run_writeStructure_iff.1 hwrite
  obtain ⟨decode', hdecode'⟩ := exists_decode hencode
  obtain ⟨hstorable, htyped⟩ := isStorable_of_decode hdecode hs hlength
  have hagain := run_readStructure_of_write hg hdecode' hnext
  have hkeeps : (∃ back, Id.run ((readStructure FileTree.access output target).run next) =
      (.ok back, next) ∧ IsKept s.atoms back.atoms) ↔
        (g = .xyz → ∀ a ∈ s.atoms, Xyz.IsElementField a.element) := by
    rw [← exists_isKept_iff hdecode' hencode hstorable htyped s.comment, hagain]
    simp
  refine ⟨hread, hkeeps.trans ?_⟩
  rw [hf, hg]
  cases f with
  | xyz =>
    -- the elements of an XYZ file are fields
    obtain rfl := Option.some.inj hdecode
    have hfields := (Xyz.isRead_of_read hs).1.isElementField
    simp only [Except.ok.injEq, reduceCtorEq, false_implies, iff_true]
    exact fun _ => hfields
  | data => simp
  | dump => cases hdecode

/-! ## A label that is no field -/

/-- A data file whose only label has a blank in it. -/
def labelledText : String :=
  "sheet\n\n1 atoms\n1 atom types\n\nMasses\n\n1 12.0110 # C sp2\n\nAtoms # full\n\n1 1 1 0 0.5 0.25 0\n"

/-- A tree with this file. -/
def labelledTree : FileTree where
  files := [(["a.data"], labelledText)]

/-- It is read, and what is written of it as an XYZ file is not. -/
theorem read_labelledText : ∃ s, LammpsData.read labelledText = .ok s ∧ s.atoms.length = 1 ∧
    (Xyz.read (Xyz.write s.atoms s.comment)).isOk = false := by
  have hread : ((LammpsData.read labelledText).toOption.map fun s =>
      (s.atoms.length, (Xyz.read (Xyz.write s.atoms s.comment)).isOk)) = some (1, false) := by
    decide +kernel
  cases hs : LammpsData.read labelledText with
  | error e => simp [hs, Except.toOption] at hread
  | ok s =>
    refine ⟨s, rfl, ?_⟩
    simpa [hs, Except.toOption] using hread

/-- It can be converted to a file of either format. -/
theorem exists_convert_labelledTree {output : String} {g : FileFormat}
    {encode : List (Atom Double) → String → String} {s : StructureFile}
    (hs : LammpsData.read labelledText = .ok s)
    (hg : FileFormat.resolve output none = .ok g) (hencode : g.encode? = some encode)
    (hplace : labelledTree.locate output = some [output]) :
    ∃ next, Id.run ((convertStructure FileTree.access "a.data" output none none).run
      labelledTree) = (.ok s, next) := by
  have hf : FileFormat.resolve "a.data" none = .ok .data :=
    resolve_of_extension (by decide +kernel)
  have hinput : labelledTree.locate "a.data" = some ["a.data"] :=
    FileTree.locate_of_isFileName (by decide +kernel) (by simp) (by decide)
  have htext : labelledTree.read? "a.data" = some labelledText := by
    rw [FileTree.read?, hinput]
    rfl
  obtain ⟨next, hnext⟩ : ∃ next, labelledTree.write? output (encode s.atoms s.comment) =
      some next := by
    rw [FileTree.write?, hplace]
    exact ⟨_, rfl⟩
  refine ⟨next, run_convertStructure_iff.2 ⟨?_, ?_⟩⟩
  · exact run_readStructure_iff.2 ⟨rfl, .data, _, _, hf, rfl, htext, hs⟩
  · exact run_writeStructure_iff.2 ⟨g, encode, hg, hencode, hnext⟩

/-- A data file keeps the label. -/
theorem convert_keeps_iff_labelled :
    ∃ s next back, Id.run ((convertStructure FileTree.access "a.data" "b.data" none none).run
        labelledTree) = (.ok s, next) ∧
      Id.run ((readStructure FileTree.access "b.data" none).run next) = (.ok back, next) ∧
        IsKept s.atoms back.atoms := by
  obtain ⟨s, hs, hlength, -⟩ := read_labelledText
  have hg : FileFormat.resolve "b.data" none = .ok .data :=
    resolve_of_extension (by decide +kernel)
  obtain ⟨next, hnext⟩ := exists_convert_labelledTree hs hg rfl
    (FileTree.locate_of_isFileName (by decide +kernel) (by simp) (by decide))
  obtain ⟨-, hkeeps⟩ := convert_keeps_iff hnext (by rw [hlength]; decide)
  obtain ⟨back, hback, hkept⟩ := hkeeps.2 (by rw [hg]; simp)
  exact ⟨s, next, back, hnext, hback, hkept⟩

/-- An XYZ file loses the whole structure: what was written of it cannot be read. -/
theorem exists_unreadable_conversion :
    ∃ s next, Id.run ((convertStructure FileTree.access "a.data" "b.xyz" none none).run
        labelledTree) = (.ok s, next) ∧ s.atoms.length = 1 ∧
      ∀ back, Id.run ((readStructure FileTree.access "b.xyz" none).run next) ≠ (.ok back, next) := by
  obtain ⟨s, hs, hlength, hunread⟩ := read_labelledText
  have hg : FileFormat.resolve "b.xyz" none = .ok .xyz :=
    resolve_of_extension (by decide +kernel)
  obtain ⟨next, hnext⟩ := exists_convert_labelledTree hs hg rfl
    (FileTree.locate_of_isFileName (by decide +kernel) (by simp) (by decide))
  refine ⟨s, next, hnext, hlength, ?_⟩
  obtain ⟨-, hwrite⟩ := run_convertStructure_iff.1 hnext
  obtain ⟨g, encode, hg', hencode, hwritten⟩ := run_writeStructure_iff.1 hwrite
  obtain rfl : FileFormat.xyz = g := by simpa [hg] using hg'
  obtain rfl := Option.some.inj hencode
  intro back hback
  rw [run_readStructure_of_write hg rfl hwritten] at hback
  obtain ⟨hread, -⟩ := Prod.mk.inj hback
  rw [hread] at hunread
  cases hunread

end Honeycomb
