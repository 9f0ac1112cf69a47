import Mathlib
import Honeycomb.File.Xyz
import Honeycomb.Proofs.Collection.Numbering
import Honeycomb.Proofs.Element
import Honeycomb.Proofs.Number.Decimal
import Honeycomb.Proofs.Outcome

/-!
# XYZ files that are written and read again

* `Xyz.IsElementField` — an element that a field can name. `Xyz.isElementField_elementOf` — every
  element that is read off a field is one.
* `Xyz.IsReadBack` — what comes back of atoms: elements in order and coordinates with eight
  decimals, under new ids and types.
* `readAtoms_spec` — what the reader makes of any lines; `readAtoms_rows` — of the lines that are
  written.

Principal result: `isReadBack_read_write` — what is written is read again.
-/

set_option autoImplicit false

namespace Honeycomb.Xyz

variable {atoms : List (Atom Double)} {comment : String}

/-! ## Elements -/

/-- An element that a field can name: one word that is not taken for the name of another element,
as an atomic number would be. -/
structure IsElementField (element : String) : Prop where
  isWord : Text.IsWord element.toList
  elementOf_eq : elementOf element.toList = element

/-- The symbols of the known elements name them. -/
theorem isElementField_symbol {e : Element} (h : e ∈ Element.table) : IsElementField e.symbol := by
  have hnames : ∀ e ∈ Element.table, elementOf e.symbol.toList = e.symbol := by
    decide +kernel
  exact ⟨Element.isWord_symbol h, hnames e h⟩

/-- An element that is read off a word is named by it again. -/
theorem isElementField_elementOf {field : List Char} (h : Text.IsWord field) :
    IsElementField (elementOf field) := by
  cases htoken : Element.ofToken? field with
  | some e =>
    have helement : elementOf field = e.symbol := by rw [elementOf, htoken]
    rw [helement]
    exact isElementField_symbol (Element.mem_table_of_ofToken? htoken)
  | none =>
    have helement : elementOf field = String.ofList field := by rw [elementOf, htoken]
    rw [helement]
    refine ⟨?_, ?_⟩
    · rwa [String.toList_ofList]
    · rw [String.toList_ofList, helement]

/-! ## Reading -/

/-- The atom that is read off an element and a position. -/
def rowBack (id : Nat) (element : String) (position : Vec3 Double) : Atom Double :=
  { element, id := some id, position := some position : AtomSpec Double }.build

/-- **Inversion of `readAtom`.** -/
theorem exists_of_readAtom {line id : Nat} {fields : List (List Char)} {a : Atom Double}
    (h : readAtom line id fields = .ok a) :
    ∃ field ∈ fields, ∃ position, a = rowBack id (elementOf field) position := by
  match fields, h with
  | element :: x :: y :: z :: more, h =>
    simp only [readAtom, bind_eq_ok_iff] at h
    obtain ⟨x, -, y, -, z, -, h⟩ := h
    exact ⟨element, List.mem_cons_self, ⟨x, y, z⟩, (Except.ok.inj h).symm⟩
  | [], h => cases h
  | [_], h => cases h
  | [_, _], h => cases h
  | [_, _, _], h => cases h

/-- A line that is not blank is the line of an atom. -/
theorem readAtoms_cons {text : List Char} (h : Text.words text ≠ []) (wanted id line : Nat)
    (lines : List (List Char)) :
    readAtoms (wanted + 1) id line (text :: lines) = (do
      let a ← readAtom line id (Text.words text)
      let more ← readAtoms wanted (id + 1) (line + 1) lines
      return a :: more) := by
  rw [readAtoms]
  split
  · contradiction
  · rfl

/-- **What the reader makes of lines**: at most as many atoms as are wanted, with ids one after
another, no molecules, and elements that can be written. -/
theorem readAtoms_spec {wanted id line : Nat} {lines : List (List Char)}
    {back : List (Atom Double)} (h : readAtoms wanted id line lines = .ok back) :
    back.length ≤ wanted ∧ back.map (·.id) = List.range' id back.length ∧
      ∀ a ∈ back, IsElementField a.element ∧ a.molecule = 0 := by
  induction lines generalizing wanted id line back with
  | nil =>
    obtain rfl : [] = back := Except.ok.inj h
    simp
  | cons text lines ih =>
    cases wanted with
    | zero =>
      obtain rfl : [] = back := Except.ok.inj h
      simp
    | succ wanted =>
      unfold readAtoms at h
      dsimp only at h
      split at h
      · exact ih h
      · simp only [bind_eq_ok_iff] at h
        obtain ⟨a, hatom, more, hmore, h⟩ := h
        obtain rfl : a :: more = back := Except.ok.inj h
        obtain ⟨hlength, hids, hmembers⟩ := ih hmore
        obtain ⟨field, hfield, position, rfl⟩ := exists_of_readAtom hatom
        refine ⟨by simpa using hlength, ?_, ?_⟩
        · rw [List.map_cons, hids, List.length_cons, List.range'_succ]
          rfl
        · rw [List.forall_mem_cons]
          exact ⟨⟨isElementField_elementOf (Text.isWord_of_mem_words hfield), rfl⟩, hmembers⟩

/-- The fields of the line of an atom. -/
def atomFields (a : Atom Double) : List (List Char) :=
  [a.element.toList, (fixedText 8 a.position.x).toList, (fixedText 8 a.position.y).toList,
    (fixedText 8 a.position.z).toList]

/-- The columns of a line are filled with blanks, which are no part of the fields. -/
theorem words_atomLine {a : Atom Double} (h : IsElementField a.element) :
    Text.words (atomLine a).toList = atomFields a := by
  have hcolumn : ∀ x : Double, Text.words (Text.padLeft 16 (fixedText 8 x)).toList =
      [(fixedText 8 x).toList] := by
    intro x
    rw [Text.words_padLeft, (isWord_fixedText (by decide) x).words_eq]
  have helement : Text.words (Text.padRight 3 a.element).toList = [a.element.toList] := by
    rw [Text.words_padRight, h.isWord.words_eq]
  rw [atomLine, String.toList_intercalate]
  dsimp only
  rw [show " ".toList = [' '] from rfl, Text.words_intercalate_eq_flatMap]
  simp only [List.map_cons, List.map_nil, List.flatMap_cons, List.flatMap_nil, helement, hcolumn]
  rfl

theorem readCoordinate_fixedText (line : Nat) (axis : Char) (x : Double) :
    readCoordinate line axis (fixedText 8 x).toList = .ok (x.restored 8) := by
  rw [readCoordinate, readDouble_fixedText (by decide)]

/-- The atom of a line is read wherever the line stands. -/
theorem readAtom_atomFields {a : Atom Double} (h : IsElementField a.element) (line id : Nat) :
    readAtom line id (atomFields a) =
      .ok (rowBack id a.element (a.position.map (·.restored 8))) := by
  rw [atomFields, readAtom, readCoordinate_fixedText, readCoordinate_fixedText,
    readCoordinate_fixedText, h.elementOf_eq]
  rfl

/-- The atoms that are read off the lines of atoms. -/
def rowsBack (id : Nat) (atoms : List (Atom Double)) : List (Atom Double) :=
  atoms.mapIdx fun i a => rowBack (id + i) a.element (a.position.map (·.restored 8))

/-- **The lines of atoms are read one after another.** -/
theorem readAtoms_rows (h : ∀ a ∈ atoms, IsElementField a.element) (id line : Nat) :
    readAtoms atoms.length id line (atoms.map fun a => Text.dropReturn (atomLine a).toList) =
      .ok (rowsBack id atoms) := by
  induction atoms generalizing id line with
  | nil => rfl
  | cons a atoms ih =>
    have ha := h a List.mem_cons_self
    have hrest := ih (fun b hb => h b (List.mem_cons_of_mem a hb)) (id + 1) (line + 1)
    have hwords : Text.words (Text.dropReturn (atomLine a).toList) = atomFields a := by
      rw [Text.words_dropReturn, words_atomLine ha]
    have hne : Text.words (Text.dropReturn (atomLine a).toList) ≠ [] := by
      rw [hwords]
      exact List.cons_ne_nil _ _
    rw [List.map_cons, List.length_cons, readAtoms_cons hne, hwords, readAtom_atomFields ha, hrest]
    have hids : ∀ i, id + 1 + i = id + (i + 1) := fun i => by omega
    simp only [rowsBack, List.mapIdx_cons, hids]
    rfl

/-! ## The text -/

/-- No line has a line feed in it when the elements are words. -/
theorem feed_notMem_atomLine {a : Atom Double} (h : IsElementField a.element) :
    '\n' ∉ (atomLine a).toList := by
  have hword : ∀ {w : List Char}, Text.IsWord w → '\n' ∉ w := fun hw =>
    hw.notMem_of_isBlank (by decide)
  have hcolumn : ∀ x : Double, '\n' ∉ (Text.padLeft 16 (fixedText 8 x)).toList := by
    intro x
    simpa [Text.padLeft] using hword (isWord_fixedText (by decide) x)
  have helement : '\n' ∉ (Text.padRight 3 a.element).toList := by
    simpa [Text.padRight] using hword h.isWord
  rw [atomLine, String.toList_intercalate]
  refine Text.notMem_intercalate (by decide) ?_
  simp only [List.map_cons, List.map_nil, List.forall_mem_cons]
  exact ⟨helement, hcolumn _, hcolumn _, hcolumn _, by simp⟩

/-- **The lines of an XYZ file.** -/
theorem lines_write (h : ∀ a ∈ atoms, IsElementField a.element) (comment : String) :
    Text.lines (write atoms comment).toList =
      Text.dropReturn (toString atoms.length).toList :: Text.dropReturn (oneLine comment).toList ::
        atoms.map fun a => Text.dropReturn (atomLine a).toList := by
  have htext : (write atoms comment).toList =
      ((toString atoms.length).toList :: (oneLine comment).toList ::
        atoms.map fun a => (atomLine a).toList).flatMap fun line => line ++ ['\n'] := by
    simp [write, List.flatMap_map]
  have hfeed : ∀ line ∈ (toString atoms.length).toList :: (oneLine comment).toList ::
      atoms.map fun a => (atomLine a).toList, '\n' ∉ line := by
    rw [List.forall_mem_cons, List.forall_mem_cons, List.forall_mem_map]
    refine ⟨?_, feed_notMem_oneLine, fun a ha => feed_notMem_atomLine (h a ha)⟩
    exact fun hmem => ne_of_isDigit (isDigit_of_mem_toString hmem) (by decide) rfl
  rw [htext, Text.lines_flatMap hfeed, List.map_cons, List.map_cons, List.map_map]
  rfl

/-! ## Files -/

/-- Atoms as the reader makes them: elements that can be written again, ids that count the atoms,
and types that say in which place their elements first appear. -/
structure IsRead (atoms : List (Atom Double)) : Prop where
  isElementField : ∀ a ∈ atoms, IsElementField a.element
  molecules : ∀ a ∈ atoms, a.molecule = 0
  ids : atoms.map (·.id) = List.range' 1 atoms.length
  types : atoms.map (·.type) =
    atoms.map fun a => (atoms.map (·.element)).eraseDups.idxOf a.element + 1

/-- Atoms with ids one after another are as the reader makes them once they have types. -/
theorem isRead_typedByElement (hids : atoms.map (·.id) = List.range' 1 atoms.length)
    (hmembers : ∀ a ∈ atoms, IsElementField a.element ∧ a.molecule = 0) :
    IsRead (typedByElement atoms) := by
  have hlabels : (typedByElement atoms).map (·.element) = atoms.map (·.element) :=
    map_typedByElement (fun _ _ => rfl) atoms
  have hlength : (typedByElement atoms).length = atoms.length := by
    simpa using congrArg List.length hlabels
  have hmember : ∀ a ∈ typedByElement atoms, IsElementField a.element ∧ a.molecule = 0 := by
    intro a ha
    have hviews : (typedByElement atoms).map (fun a => (a.element, a.molecule)) =
        atoms.map fun a => (a.element, a.molecule) :=
      map_typedByElement (fun _ _ => rfl) atoms
    have hmem : (a.element, a.molecule) ∈ atoms.map fun a => (a.element, a.molecule) :=
      hviews ▸ List.mem_map_of_mem ha
    obtain ⟨b, hb, hview⟩ := List.mem_map.1 hmem
    obtain ⟨helement, hmolecule⟩ := Prod.mk.inj hview
    rw [← helement, ← hmolecule]
    exact hmembers b hb
  refine ⟨fun a ha => (hmember a ha).1, fun a ha => (hmember a ha).2, ?_, ?_⟩
  · rw [map_typedByElement (fun _ _ => rfl), hids, hlength]
  · rw [hlabels]
    exact List.map_congr_left fun a ha => (type_of_mem_typedByElement ha).2

/-- **What the reader accepts**: a text that declares its atoms, which are then as many. -/
theorem read_cases {text : String} {file : StructureFile} (h : read text = .ok file) :
    ∃ first rest back, Text.lines text.toList = first :: rest ∧
      readCount (Text.trim first) = some back.length ∧
      readAtoms back.length 1 3 rest.tail = .ok back ∧
      file = ⟨typedByElement back, String.ofList (Text.trimEnd (rest.headD [])),
        latticeOf? (rest.headD [])⟩ := by
  unfold read at h
  split at h
  case h_1 => cases h
  case h_2 first rest hlines =>
    dsimp only at h
    split at h
    case h_1 => cases h
    case h_2 declared hcount =>
      rw [bind_eq_ok_iff] at h
      obtain ⟨back, hback, h⟩ := h
      split at h
      case isTrue hlength =>
        subst hlength
        exact ⟨first, rest, back, hlines, hcount, hback, (Except.ok.inj h).symm⟩
      case isFalse => cases h

/-- What is read can be written again, and its atoms can be counted. -/
theorem isRead_of_read {text : String} {file : StructureFile} (h : read text = .ok file) :
    IsRead file.atoms ∧ file.atoms.length < 2 ^ 64 := by
  obtain ⟨first, rest, back, -, hcount, hback, rfl⟩ := read_cases h
  obtain ⟨-, hids, hmembers⟩ := readAtoms_spec hback
  refine ⟨isRead_typedByElement hids hmembers, ?_⟩
  simpa [typedByElement, firstAppearance, length_numberAfter] using lt_of_readCount hcount

/-- What comes back of atoms that are written: as many atoms in the same order. Ids count them, and
the type of an atom is the place of its element among the different ones, in the order in which they
first appear. -/
structure IsReadBack (atoms back : List (Atom Double)) : Prop where
  elements : back.map (·.element) = atoms.map (·.element)
  positions : back.map (·.position) = atoms.map (·.position.map (·.restored 8))
  ids : back.map (·.id) = List.range' 1 atoms.length
  types : back.map (·.type) =
    atoms.map fun a => (atoms.map (·.element)).eraseDups.idxOf a.element + 1

theorem isReadBack_rowsBack (atoms : List (Atom Double)) :
    IsReadBack atoms (typedByElement (rowsBack 1 atoms)) := by
  have hcolumn : ∀ {β : Type} {view f : Atom Double → β},
      (∀ id a, view (rowBack id a.element (a.position.map (·.restored 8))) = f a) →
        (rowsBack 1 atoms).map view = atoms.map f := by
    intro β view f hview
    refine List.ext_getElem (by simp [rowsBack]) ?_
    intro i _ _
    simp [rowsBack, hview]
  have hlabels : (rowsBack 1 atoms).map (·.element) = atoms.map (·.element) :=
    hcolumn fun _ _ => rfl
  have hpositions : (rowsBack 1 atoms).map (·.position) =
      atoms.map (·.position.map (·.restored 8)) :=
    hcolumn fun _ _ => rfl
  have hids : (rowsBack 1 atoms).map (·.id) = List.range' 1 atoms.length := by
    refine List.ext_getElem (by simp [rowsBack]) ?_
    intro i _ _
    simp [rowsBack, rowBack, AtomSpec.build]
  refine ⟨?_, ?_, ?_, ?_⟩
  · rw [map_typedByElement (fun _ _ => rfl), hlabels]
  · rw [map_typedByElement (fun _ _ => rfl), hpositions]
  · rw [map_typedByElement (fun _ _ => rfl), hids]
  · rw [types_typedByElement, hlabels, firstAppearance_eq, List.map_map]
    rfl

/-- What the reader gives for a text that was written. -/
theorem read_write_eq (hlength : atoms.length < 2 ^ 64)
    (helements : ∀ a ∈ atoms, IsElementField a.element) (comment : String) :
    read (write atoms comment) = .ok ⟨typedByElement (rowsBack 1 atoms),
      String.ofList (Text.trimEnd (Text.dropReturn (oneLine comment).toList)),
      latticeOf? (Text.dropReturn (oneLine comment).toList)⟩ := by
  have hcount : Text.trim (Text.dropReturn (toString atoms.length).toList) =
      (toString atoms.length).toList := by
    rw [Text.trim_dropReturn, (isWord_toString atoms.length).trim_eq]
  have hrows := readAtoms_rows helements 1 3
  have hwanted : (rowsBack 1 atoms).length = atoms.length := by simp [rowsBack]
  rw [read, lines_write helements]
  dsimp only
  rw [hcount, readCount_toString hlength]
  dsimp only
  rw [List.headD_cons, List.tail_cons, hrows]
  change (if (rowsBack 1 atoms).length = atoms.length then _ else _) = _
  rw [if_pos hwanted]
  rfl

/-- **What is written is read again**: as many atoms in the same order, with the same elements and
with coordinates rounded to eight decimals, and the comment on one line without the blanks at its
end. -/
theorem isReadBack_read_write (hlength : atoms.length < 2 ^ 64)
    (helements : ∀ a ∈ atoms, IsElementField a.element) (comment : String) :
    ∃ file, read (write atoms comment) = .ok file ∧ IsReadBack atoms file.atoms ∧
      file.comment = String.ofList
        (Text.trimEnd (comment.toList.map fun c => if c = '\n' then ' ' else c)) := by
  refine ⟨_, read_write_eq hlength helements comment, isReadBack_rowsBack atoms, ?_⟩
  rw [Text.trimEnd_dropReturn, oneLine, String.toList_map]

/-- Atoms of an unknown element, of one with a symbol, and without a proper place. -/
def namedAtoms : List (Atom Double) :=
  [Atom.placed "Xx" ⟨0.5, 0, 0⟩, Atom.placed "C" ⟨-0.000000001, .infinity, 0⟩,
    Atom.placed "Xx" ⟨.undefined, 0, 1.5⟩]

/-- The comment looks like the line of an atom. -/
theorem isReadBack_read_write_named :
    ∃ file, read (write namedAtoms "C 1 2 3\n \t") = .ok file ∧
      file.atoms.map (·.element) = ["Xx", "C", "Xx"] ∧ file.atoms.map (·.id) = [1, 2, 3] ∧
      file.atoms.map (·.type) = [1, 2, 1] ∧
      file.atoms.map (·.position.x.bits) =
        [(0.5 : Double).bits, (-0 : Double).bits, Double.nan.bits] ∧
      file.comment = "C 1 2 3" := by
  have hlength : namedAtoms.length < 2 ^ 64 := by decide
  have helements : ∀ a ∈ namedAtoms, IsElementField a.element := by
    have hne : ∀ a ∈ namedAtoms, a.element.toList ≠ [] := by decide
    have hblanks : ∀ a ∈ namedAtoms, a.element.toList.all (!isBlank ·) = true := by
      decide +kernel
    have hnames : ∀ a ∈ namedAtoms, elementOf a.element.toList = a.element := by
      decide +kernel
    intro a ha
    exact ⟨⟨hne a ha, by simpa using hblanks a ha⟩, hnames a ha⟩
  obtain ⟨file, hread, hback, hcomment⟩ :=
    isReadBack_read_write hlength helements "C 1 2 3\n \t"
  have hpositions := congrArg (List.map (·.x.bits)) hback.positions
  rw [List.map_map, List.map_map] at hpositions
  refine ⟨file, hread, hback.elements, hback.ids, ?_, ?_, ?_⟩
  · exact hback.types.trans (by decide)
  · exact hpositions.trans (by decide +kernel)
  · exact hcomment.trans (by decide)

end Honeycomb.Xyz
