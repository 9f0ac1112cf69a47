import Mathlib
import Honeycomb.Proofs.File.XyzRoundTrip

/-!
# The XYZ format

What the reader accepts, said of the text alone.

* `Xyz.declared?` — the number of atoms in the first line. `Xyz.rows` — the lines behind the comment
  that are not blank, each with its number in the file.
* `Xyz.HoldsAtom` — a line with an element and three coordinates. `Xyz.IsFaultOf` — what is wrong with
  any other line: `readAtom_eq_ok_iff` and `readAtom_eq_error_iff` say that there is nothing else.
* `readAtoms_eq_mapM` — the loop over the lines goes through the first rows, as many as are wanted.
* `AreAtomsOf` — the atoms of lines. `SameOutcome` — the same file, or the same fault in some line.

Principal result: `reads_exactly_format` — which texts are read, what is read off them, what has no
influence on it, and where the fault of a line is reported.
-/

set_option autoImplicit false

namespace Honeycomb.Xyz

/-! ## The parts of a text -/

/-- The number of atoms in the first line. -/
def declared? (text : String) : Option Nat :=
  (Text.lines text.toList).head?.bind fun first => readCount (Text.trim first)

/-- The second line, empty when there is none. -/
def commentLine (text : String) : List Char :=
  ((Text.lines text.toList)[1]?).getD []

/-- The lines that are not blank, each with its number. -/
def rowsFrom (number : Nat) (lines : List (List Char)) : List (List Char × Nat) :=
  (lines.zipIdx number).filter fun row => !(Text.words row.1).isEmpty

/-- The lines behind the comment that are not blank. Lines are numbered from one. -/
def rows (text : String) : List (List Char × Nat) :=
  (((Text.lines text.toList).zipIdx 1).drop 2).filter fun row => !(Text.words row.1).isEmpty

variable {text other : String} {n : Nat}

theorem rows_eq {first : List Char} {rest : List (List Char)}
    (h : Text.lines text.toList = first :: rest) : rows text = rowsFrom 3 rest.tail := by
  rw [rows, h]
  cases rest with
  | nil => rfl
  | cons comment body => rfl

theorem rowsFrom_of_blank {line : List Char} (h : Text.words line = []) (number : Nat)
    (lines : List (List Char)) :
    rowsFrom number (line :: lines) = rowsFrom (number + 1) lines := by
  rw [rowsFrom, List.zipIdx_cons, List.filter_cons_of_neg]
  · rfl
  · simp [h]

theorem rowsFrom_of_not_blank {line : List Char} (h : Text.words line ≠ []) (number : Nat)
    (lines : List (List Char)) :
    rowsFrom number (line :: lines) = (line, number) :: rowsFrom (number + 1) lines := by
  rw [rowsFrom, List.zipIdx_cons, List.filter_cons_of_pos]
  · rfl
  · simpa using h

/-! ## Lines -/

/-- A line with an element, three coordinates, and whatever follows. -/
def HoldsAtom (line : List Char) (element : String) (position : Vec3 Double) : Prop :=
  ∃ name x y z more, Text.words line = name :: x :: y :: z :: more ∧ elementOf name = element ∧
    readDouble x = some position.x ∧ readDouble y = some position.y ∧
    readDouble z = some position.z

/-- The line of an atom. -/
def IsAtomLine (line : List Char) : Prop :=
  ∃ element position, HoldsAtom line element position

/-- What is wrong with a line that is not the line of an atom. -/
inductive IsFaultOf (line : List Char) : FormatFault → Prop where
  | fields (h : (Text.words line).length < 4) : IsFaultOf line .xyzFields
  | x {name x y z : List Char} {more : List (List Char)}
    (h : Text.words line = name :: x :: y :: z :: more) (hx : readDouble x = none) :
    IsFaultOf line (.xyzCoordinate 'x' (String.ofList x))
  | y {name x y z : List Char} {more : List (List Char)}
    (h : Text.words line = name :: x :: y :: z :: more) (hx : readDouble x ≠ none)
    (hy : readDouble y = none) : IsFaultOf line (.xyzCoordinate 'y' (String.ofList y))
  | z {name x y z : List Char} {more : List (List Char)}
    (h : Text.words line = name :: x :: y :: z :: more) (hx : readDouble x ≠ none)
    (hy : readDouble y ≠ none) (hz : readDouble z = none) :
    IsFaultOf line (.xyzCoordinate 'z' (String.ofList z))

/-- The fault is one of a line of an atom, and not one of the number of atoms. -/
def IsLineFault (f : FormatFault) : Prop :=
  ∃ line, IsFaultOf line f

theorem readCoordinate_of_some {number : Nat} {axis : Char} {field : List Char} {x : Double}
    (h : readDouble field = some x) : readCoordinate number axis field = .ok x := by
  rw [readCoordinate, h]

theorem readCoordinate_of_none {number : Nat} {axis : Char} {field : List Char}
    (h : readDouble field = none) :
    readCoordinate number axis field =
      .error (.format number (.xyzCoordinate axis (String.ofList field))) := by
  rw [readCoordinate, h]
  rfl

theorem readAtom_of_holdsAtom {line : List Char} {element : String} {position : Vec3 Double}
    (h : HoldsAtom line element position) (number id : Nat) :
    readAtom number id (Text.words line) = .ok (rowBack id element position) := by
  obtain ⟨name, x, y, z, more, hwords, rfl, hx, hy, hz⟩ := h
  rw [hwords, readAtom, readCoordinate_of_some hx, readCoordinate_of_some hy,
    readCoordinate_of_some hz]
  rfl

theorem readAtom_of_isFaultOf {line : List Char} {f : FormatFault} (h : IsFaultOf line f)
    (number id : Nat) :
    readAtom number id (Text.words line) = .error (.format number f) := by
  cases h with
  | fields h =>
    match hwords : Text.words line with
    | [] | [_] | [_, _] | [_, _, _] => rfl
    | _ :: _ :: _ :: _ :: _ =>
      rw [hwords, List.length_cons, List.length_cons, List.length_cons, List.length_cons] at h
      omega
  | x h hx =>
    rw [h, readAtom, readCoordinate_of_none hx]
    rfl
  | y h hx hy =>
    obtain ⟨x, hx⟩ := Option.ne_none_iff_exists'.1 hx
    rw [h, readAtom, readCoordinate_of_some hx, readCoordinate_of_none hy]
    rfl
  | z h hx hy hz =>
    obtain ⟨x, hx⟩ := Option.ne_none_iff_exists'.1 hx
    obtain ⟨y, hy⟩ := Option.ne_none_iff_exists'.1 hy
    rw [h, readAtom, readCoordinate_of_some hx, readCoordinate_of_some hy,
      readCoordinate_of_none hz]
    rfl

/-- **A line is the line of an atom or has a fault.** -/
theorem isAtomLine_or_isFaultOf (line : List Char) :
    IsAtomLine line ∨ ∃ f, IsFaultOf line f := by
  by_cases hlength : (Text.words line).length < 4
  · exact .inr ⟨_, .fields hlength⟩
  · obtain ⟨name, x, y, z, more, hwords⟩ :
        ∃ name x y z more, Text.words line = name :: x :: y :: z :: more := by
      match hwords : Text.words line with
      | name :: x :: y :: z :: more => exact ⟨name, x, y, z, more, rfl⟩
      | [] | [_] | [_, _] | [_, _, _] => simp [hwords] at hlength
    cases hx : readDouble x with
    | none => exact .inr ⟨_, .x hwords hx⟩
    | some a =>
      have hx' : readDouble x ≠ none := by simp [hx]
      cases hy : readDouble y with
      | none => exact .inr ⟨_, .y hwords hx' hy⟩
      | some b =>
        have hy' : readDouble y ≠ none := by simp [hy]
        cases hz : readDouble z with
        | none => exact .inr ⟨_, .z hwords hx' hy' hz⟩
        | some c => exact .inl ⟨_, ⟨a, b, c⟩, name, x, y, z, more, hwords, rfl, hx, hy, hz⟩

theorem readAtom_eq_ok_iff {line : List Char} {number id : Nat} {a : Atom Double} :
    readAtom number id (Text.words line) = .ok a ↔
      ∃ element position, HoldsAtom line element position ∧ a = rowBack id element position := by
  constructor
  · intro h
    rcases isAtomLine_or_isFaultOf line with ⟨element, position, hline⟩ | ⟨f, hf⟩
    · rw [readAtom_of_holdsAtom hline] at h
      exact ⟨element, position, hline, (Except.ok.inj h).symm⟩
    · rw [readAtom_of_isFaultOf hf] at h
      cases h
  · rintro ⟨element, position, hline, rfl⟩
    exact readAtom_of_holdsAtom hline number id

theorem readAtom_eq_error_iff {line : List Char} {number id : Nat} {e : Error Double} :
    readAtom number id (Text.words line) = .error e ↔
      ∃ f, IsFaultOf line f ∧ e = .format number f := by
  constructor
  · intro h
    rcases isAtomLine_or_isFaultOf line with ⟨element, position, hline⟩ | ⟨f, hf⟩
    · rw [readAtom_of_holdsAtom hline] at h
      cases h
    · rw [readAtom_of_isFaultOf hf] at h
      exact ⟨f, hf, (Except.error.inj h).symm⟩
  · rintro ⟨f, hf, rfl⟩
    exact readAtom_of_isFaultOf hf number id

/-! ## The loop -/

/-- Reads the atom of a numbered line under an id. -/
def readRow (row : (List Char × Nat) × Nat) : Except (Error Double) (Atom Double) :=
  readAtom row.1.2 row.2 (Text.words row.1.1)

/-- **The loop goes through the first rows**, with ids one after another. -/
theorem readAtoms_eq_mapM (wanted id number : Nat) (lines : List (List Char)) :
    readAtoms wanted id number lines =
      (((rowsFrom number lines).take wanted).zipIdx id).mapM readRow := by
  induction lines generalizing wanted id number with
  | nil => rw [readAtoms, rowsFrom, List.zipIdx_nil, List.filter_nil, List.take_nil]; rfl
  | cons line lines ih =>
    cases wanted with
    | zero => rfl
    | succ wanted =>
      by_cases hblank : Text.words line = []
      · rw [rowsFrom_of_blank hblank, ← ih, readAtoms, hblank]
      · rw [rowsFrom_of_not_blank hblank, readAtoms_cons hblank, ih, List.take_succ_cons,
          List.zipIdx_cons, List.mapM_cons]
        rfl

/-- What the reader makes of a text that says how many atoms it holds. -/
theorem read_of_declared (h : declared? text = some n) : read text = (do
    let atoms ← (((rows text).take n).zipIdx 1).mapM readRow
    if atoms.length = n then
      return ⟨typedByElement atoms, String.ofList (Text.trimEnd (commentLine text)),
        latticeOf? (commentLine text)⟩
    else fault (atoms.length + 3) (.xyzAtoms n atoms.length)) := by
  cases hlines : Text.lines text.toList with
  | nil => simp [declared?, hlines] at h
  | cons first rest =>
    have hcount : readCount (Text.trim first) = some n := by simpa [declared?, hlines] using h
    have hcomment : commentLine text = rest.headD [] := by
      rw [commentLine, hlines]
      cases rest with
      | nil => rfl
      | cons comment body => rfl
    rw [read, hlines]
    dsimp only
    rw [hcount, rows_eq hlines, hcomment, ← readAtoms_eq_mapM]

/-- A text that does not say how many atoms it holds is refused for its first line. -/
theorem read_of_not_declared (h : declared? text = none) :
    ∃ f, read text = .error (.format 1 f) ∧ ¬IsLineFault f := by
  cases hlines : Text.lines text.toList with
  | nil =>
    refine ⟨.xyzEmpty, by rw [read, hlines]; rfl, ?_⟩
    rintro ⟨line, hf⟩
    cases hf
  | cons first rest =>
    have hcount : readCount (Text.trim first) = none := by simpa [declared?, hlines] using h
    refine ⟨.xyzAtomCount (String.ofList (Text.trim first)), ?_, ?_⟩
    · rw [read, hlines]
      dsimp only
      rw [hcount]
      rfl
    · rintro ⟨line, hf⟩
      cases hf

/-! ## What is read -/

/-- **The atoms of lines**, in order: each has the element and the place of its line and is otherwise
as any such atom, ids count them, and types say in which place their elements first appear. -/
structure AreAtomsOf (lines : List (List Char)) (atoms : List (Atom Double)) : Prop where
  holds : List.Forall₂ (fun line a => ∃ element position, HoldsAtom line element position ∧
    { a with id := 0, type := 0 } = Atom.placed element position) lines atoms
  ids : atoms.map (·.id) = List.range' 1 lines.length
  types : atoms.map (·.type) =
    atoms.map fun a => (atoms.map (·.element)).eraseDups.idxOf a.element + 1

/-- Atoms as they come out of the loop. -/
theorem mapM_readRow_eq_ok_iff {found : List (List Char × Nat)} {id : Nat}
    {atoms : List (Atom Double)} :
    (found.zipIdx id).mapM readRow = .ok atoms ↔
      List.Forall₂ (fun row a => ∃ element position, HoldsAtom row.1.1 element position ∧
        a = rowBack row.2 element position) (found.zipIdx id) atoms := by
  rw [mapM_eq_ok_iff]
  simp only [readRow, readAtom_eq_ok_iff]

theorem exists_readRow_iff {row : (List Char × Nat) × Nat} :
    (∃ a, readRow row = .ok a) ↔ IsAtomLine row.1.1 := by
  simp only [readRow, readAtom_eq_ok_iff]
  constructor
  · rintro ⟨-, element, position, hline, -⟩
    exact ⟨element, position, hline⟩
  · rintro ⟨element, position, hline⟩
    exact ⟨_, element, position, hline, rfl⟩

theorem exists_mapM_readRow_iff {found : List (List Char × Nat)} :
    (∃ atoms, (found.zipIdx 1).mapM readRow = .ok atoms) ↔ ∀ row ∈ found, IsAtomLine row.1 := by
  rw [exists_mapM_eq_ok_iff]
  simp only [exists_readRow_iff]
  conv_rhs => rw [← List.zipIdx_map_fst 1 found, List.forall_mem_map]

/-- What is read off a text that says how many atoms it holds. -/
theorem read_eq_ok_iff (h : declared? text = some n) {file : StructureFile} :
    read text = .ok file ↔ n ≤ (rows text).length ∧ ∃ atoms,
      (((rows text).take n).zipIdx 1).mapM readRow = .ok atoms ∧
        file = ⟨typedByElement atoms, String.ofList (Text.trimEnd (commentLine text)),
          latticeOf? (commentLine text)⟩ := by
  have hlength : ∀ atoms, (((rows text).take n).zipIdx 1).mapM readRow = .ok atoms →
      atoms.length = min n (rows text).length := by
    intro atoms hatoms
    simpa using (mapM_eq_ok_iff.1 hatoms).length_eq.symm
  rw [read_of_declared h, bind_eq_ok_iff]
  constructor
  · rintro ⟨atoms, hatoms, hfile⟩
    split at hfile
    case isTrue heq =>
      rw [hlength atoms hatoms, min_eq_left_iff] at heq
      exact ⟨heq, atoms, hatoms, (Except.ok.inj hfile).symm⟩
    case isFalse => cases hfile
  · rintro ⟨hle, atoms, hatoms, rfl⟩
    refine ⟨atoms, hatoms, ?_⟩
    rw [if_pos ((hlength atoms hatoms).trans (min_eq_left hle))]
    rfl

/-- **Which texts are read.** -/
theorem exists_read_iff : (∃ file, read text = .ok file) ↔ ∃ n, declared? text = some n ∧
    n ≤ (rows text).length ∧ ∀ row ∈ (rows text).take n, IsAtomLine row.1 := by
  simp only [← exists_mapM_readRow_iff]
  constructor
  · rintro ⟨file, hread⟩
    cases hdeclared : declared? text with
    | none =>
      obtain ⟨f, hfault, -⟩ := read_of_not_declared hdeclared
      cases hread.symm.trans hfault
    | some n =>
      obtain ⟨hle, atoms, hatoms, -⟩ := (read_eq_ok_iff hdeclared).1 hread
      exact ⟨n, rfl, hle, atoms, hatoms⟩
  · rintro ⟨n, hdeclared, hle, atoms, hatoms⟩
    exact ⟨_, (read_eq_ok_iff hdeclared).2 ⟨hle, atoms, hatoms, rfl⟩⟩

/-- **What is read.** -/
theorem areAtomsOf_of_read (h : declared? text = some n) {file : StructureFile}
    (hread : read text = .ok file) :
    AreAtomsOf (((rows text).take n).map (·.1)) file.atoms := by
  obtain ⟨hle, atoms, hatoms, rfl⟩ := (read_eq_ok_iff h).1 hread
  have hback := (isRead_of_read hread).1
  have hlines : ((rows text).take n).map (·.1) =
      (((rows text).take n).zipIdx 1).map (·.1.1) := by
    conv_lhs => rw [← List.zipIdx_map_fst 1 ((rows text).take n), List.map_map]
    rfl
  have hplaced : List.Forall₂ (fun line a => ∃ element position, HoldsAtom line element position ∧
      a = Atom.placed element position) (((rows text).take n).map (·.1))
      (atoms.map fun a => { a with id := 0, type := 0 }) := by
    rw [hlines, List.forall₂_map_left_iff, List.forall₂_map_right_iff]
    refine (mapM_readRow_eq_ok_iff.1 hatoms).imp ?_
    rintro row _ ⟨element, position, hline, rfl⟩
    exact ⟨element, position, hline, rfl⟩
  rw [← map_typedByElement (fun _ _ => rfl), List.forall₂_map_right_iff] at hplaced
  refine ⟨hplaced, ?_, hback.types⟩
  rw [hback.ids, hplaced.length_eq]

/-! ## What is not looked at -/

/-- The first four fields of the lines of atoms. -/
def fieldsRead (n : Nat) (text : String) : List (List (List Char)) :=
  ((rows text).take n).map fun row => (Text.words row.1).take 4

theorem exists_of_take {line line' name x y z : List Char} {more : List (List Char)}
    (heq : (Text.words line).take 4 = (Text.words line').take 4)
    (h : Text.words line = name :: x :: y :: z :: more) :
    ∃ more', Text.words line' = name :: x :: y :: z :: more' := by
  rw [h] at heq
  refine ⟨(Text.words line').drop 4, ?_⟩
  conv_lhs => rw [← List.take_append_drop 4 (Text.words line'), ← heq]
  rfl

theorem HoldsAtom.of_take {line line' : List Char} {element : String} {position : Vec3 Double}
    (h : HoldsAtom line element position)
    (heq : (Text.words line).take 4 = (Text.words line').take 4) :
    HoldsAtom line' element position := by
  obtain ⟨name, x, y, z, more, hwords, hread⟩ := h
  obtain ⟨more', hwords'⟩ := exists_of_take heq hwords
  exact ⟨name, x, y, z, more', hwords', hread⟩

theorem IsFaultOf.of_take {line line' : List Char} {f : FormatFault} (h : IsFaultOf line f)
    (heq : (Text.words line).take 4 = (Text.words line').take 4) : IsFaultOf line' f := by
  cases h with
  | fields h =>
    have hlength := congrArg List.length heq
    rw [List.length_take, List.length_take] at hlength
    exact .fields (by omega)
  | x h hx =>
    obtain ⟨more', h'⟩ := exists_of_take heq h
    exact .x h' hx
  | y h hx hy =>
    obtain ⟨more', h'⟩ := exists_of_take heq h
    exact .y h' hx hy
  | z h hx hy hz =>
    obtain ⟨more', h'⟩ := exists_of_take heq h
    exact .z h' hx hy hz

/-- The same result, or the same fault in some line. -/
inductive SameOutcome {β : Type} : Except (Error Double) β → Except (Error Double) β → Prop where
  | ok (b : β) : SameOutcome (.ok b) (.ok b)
  | fault (number number' : Nat) (f : FormatFault) :
    SameOutcome (.error (.format number f)) (.error (.format number' f))

theorem SameOutcome.bind {β γ : Type} {x x' : Except (Error Double) β}
    {f f' : β → Except (Error Double) γ} (h : SameOutcome x x')
    (hf : ∀ b, SameOutcome (f b) (f' b)) : SameOutcome (x >>= f) (x' >>= f') := by
  cases h with
  | ok b => exact hf b
  | fault number number' fault => exact .fault number number' fault

theorem SameOutcome.mapM {β γ : Type} {f f' : β → Except (Error Double) γ} {xs xs' : List β}
    (h : List.Forall₂ (fun x x' => SameOutcome (f x) (f' x')) xs xs') :
    SameOutcome (xs.mapM f) (xs'.mapM f') := by
  induction h with
  | nil => exact .ok []
  | cons hx _ ih =>
    rw [List.mapM_cons, List.mapM_cons]
    exact hx.bind fun b => ih.bind fun bs => .ok (b :: bs)

/-- A line is read by its first four fields, wherever it stands. -/
theorem sameOutcome_readRow {row row' : (List Char × Nat) × Nat}
    (hfields : (Text.words row.1.1).take 4 = (Text.words row'.1.1).take 4)
    (hid : row.2 = row'.2) : SameOutcome (readRow row) (readRow row') := by
  rw [readRow, readRow, hid]
  rcases isAtomLine_or_isFaultOf row.1.1 with ⟨element, position, hline⟩ | ⟨f, hf⟩
  · rw [readAtom_of_holdsAtom hline, readAtom_of_holdsAtom (hline.of_take hfields)]
    exact .ok _
  · rw [readAtom_of_isFaultOf hf, readAtom_of_isFaultOf (hf.of_take hfields)]
    exact .fault _ _ f

/-- **Nothing else has an influence**: not the blank lines, nor further fields, nor what follows. -/
theorem sameOutcome_read (h : declared? text = some n) (h' : declared? other = some n)
    (hcomment : commentLine text = commentLine other)
    (hfields : fieldsRead n text = fieldsRead n other) :
    SameOutcome (read text) (read other) := by
  have hrows : List.Forall₂ (fun row row' => SameOutcome (readRow row) (readRow row'))
      (((rows text).take n).zipIdx 1) (((rows other).take n).zipIdx 1) := by
    have hpairs : (((rows text).take n).zipIdx 1).map
        (Prod.map (fun row => (Text.words row.1).take 4) id) =
        (((rows other).take n).zipIdx 1).map
          (Prod.map (fun row => (Text.words row.1).take 4) id) := by
      rw [← List.zipIdx_map, ← List.zipIdx_map]
      exact congrArg (List.zipIdx · 1) hfields
    rw [← List.forall₂_eq_eq_eq, List.forall₂_map_left_iff, List.forall₂_map_right_iff] at hpairs
    refine hpairs.imp ?_
    intro row row' heq
    obtain ⟨hwords, hid⟩ := Prod.mk.inj heq
    exact sameOutcome_readRow hwords hid
  rw [read_of_declared h, read_of_declared h', hcomment]
  refine (SameOutcome.mapM hrows).bind fun atoms => ?_
  split_ifs
  · exact .ok _
  · exact .fault _ _ _

/-! ## Faults -/

/-- The first of the lines of atoms that has a fault, with its number. -/
def IsFirstFault (n : Nat) (text : String) (number : Nat) (f : FormatFault) : Prop :=
  ∃ before line after, (rows text).take n = before ++ (line, number) :: after ∧
    (∀ row ∈ before, IsAtomLine row.1) ∧ IsFaultOf line f

theorem mapM_readRow_eq_error_iff {id : Nat} {e : Error Double} :
    (((rows text).take n).zipIdx id).mapM readRow = .error e ↔
      ∃ number f, IsFirstFault n text number f ∧ e = .format number f := by
  rw [mapM_eq_error_iff]
  constructor
  · rintro ⟨before, x, after, hsplit, hbefore, hx⟩
    obtain ⟨f, hf, rfl⟩ := readAtom_eq_error_iff.1 hx
    refine ⟨x.1.2, f, ⟨before.map (·.1), x.1.1, after.map (·.1), ?_, ?_, hf⟩, rfl⟩
    · rw [← List.zipIdx_map_fst id ((rows text).take n), hsplit, List.map_append, List.map_cons]
    · rw [List.forall_mem_map]
      exact fun row hrow => exists_readRow_iff.1 (hbefore row hrow)
  · rintro ⟨number, f, ⟨before, line, after, hsplit, hbefore, hf⟩, rfl⟩
    rw [hsplit, List.zipIdx_append, List.zipIdx_cons]
    refine ⟨_, _, _, rfl, ?_, readAtom_of_isFaultOf hf number _⟩
    intro row hrow
    exact exists_readRow_iff.2 (hbefore row.1 (List.fst_mem_of_mem_zipIdx hrow))

/-- **A fault is reported with the number of the first line that has one.** -/
theorem read_eq_error_iff {number : Nat} {f : FormatFault} (hf : IsLineFault f) :
    read text = .error (.format number f) ↔
      ∃ n, declared? text = some n ∧ IsFirstFault n text number f := by
  constructor
  · intro h
    cases hdeclared : declared? text with
    | none =>
      obtain ⟨f', hread, hf'⟩ := read_of_not_declared hdeclared
      cases h.symm.trans hread
      exact absurd hf hf'
    | some n =>
      rw [read_of_declared hdeclared] at h
      cases hrows : (((rows text).take n).zipIdx 1).mapM readRow with
      | error e =>
        obtain ⟨number', f', hfirst, rfl⟩ := mapM_readRow_eq_error_iff.1 hrows
        rw [hrows] at h
        cases h
        exact ⟨n, rfl, hfirst⟩
      | ok atoms =>
        rw [hrows] at h
        change (if atoms.length = n then _ else _) = _ at h
        split at h
        case isTrue => cases h
        case isFalse =>
          -- that lines are missing is no fault of a line
          cases h
          obtain ⟨line, hf⟩ := hf
          cases hf
  · rintro ⟨n, hdeclared, hfirst⟩
    rw [read_of_declared hdeclared, mapM_readRow_eq_error_iff.2 ⟨number, f, hfirst, rfl⟩]
    rfl

/-- **The reader accepts exactly its format.** A text is read just when its first line says how many
atoms there are and as many lines behind the comment, blank ones left out, begin with lines of atoms.
These are the atoms. Nothing else has an influence, apart from the number of the line that a fault is
reported for; and this is the first line with a fault. -/
theorem reads_exactly_format (text : String) :
    ((∃ file, read text = .ok file) ↔ ∃ n, declared? text = some n ∧ n ≤ (rows text).length ∧
        ∀ row ∈ (rows text).take n, IsAtomLine row.1) ∧
      (∀ n file, declared? text = some n → read text = .ok file →
        AreAtomsOf (((rows text).take n).map (·.1)) file.atoms ∧
          file.comment = String.ofList (Text.trimEnd (commentLine text)) ∧
          file.lattice = latticeOf? (commentLine text)) ∧
      (∀ n other, declared? text = some n → declared? other = some n →
        commentLine text = commentLine other → fieldsRead n text = fieldsRead n other →
          SameOutcome (read text) (read other)) ∧
      ∀ number f, IsLineFault f → (read text = .error (.format number f) ↔
        ∃ n, declared? text = some n ∧ IsFirstFault n text number f) := by
  refine ⟨exists_read_iff, ?_, ?_, fun number f => read_eq_error_iff⟩
  · intro n file h hread
    obtain ⟨-, atoms, -, rfl⟩ := (read_eq_ok_iff h).1 hread
    exact ⟨areAtomsOf_of_read h hread, rfl, rfl⟩
  · intro n other h h' hcomment hfields
    exact sameOutcome_read h h' hcomment hfields

/-- Blank lines move the line of a fault, and do nothing else. -/
theorem reads_exactly_format_blank_lines :
    SameOutcome (read "1\nkept\n\nC 0 0 0 more\nend") (read "1\nkept\nC 0 0 0") ∧
      read "2\nkept\n\nC 0 0 0 more\n \t\nN 1 0 x\nend" =
        .error (.format 6 (.xyzCoordinate 'z' "x")) := by
  have hfault : IsFaultOf "N 1 0 x".toList (.xyzCoordinate 'z' "x") := by
    have hwords : Text.words "N 1 0 x".toList =
        ["N".toList, "1".toList, "0".toList, "x".toList] := by
      decide +kernel
    exact .z hwords (by decide +kernel) (by decide +kernel) (by decide +kernel)
  have hatom : IsAtomLine "C 0 0 0 more".toList := by
    obtain ⟨x, hx⟩ : ∃ x, readDouble "0".toList = some x :=
      Option.isSome_iff_exists.1 (by decide +kernel)
    exact ⟨"C", ⟨x, x, x⟩, "C".toList, "0".toList, "0".toList, "0".toList, ["more".toList],
      by decide +kernel, by decide +kernel, hx, hx, hx⟩
  refine ⟨?_, ?_⟩
  · exact (reads_exactly_format _).2.2.1 1 _ (by decide +kernel) (by decide +kernel)
      (by decide +kernel) (by decide +kernel)
  · refine ((reads_exactly_format _).2.2.2 6 _ ⟨_, hfault⟩).2 ⟨2, by decide +kernel, ?_⟩
    exact ⟨[("C 0 0 0 more".toList, 4)], "N 1 0 x".toList, [], by decide +kernel,
      by simpa using hatom, hfault⟩

end Honeycomb.Xyz
