import Mathlib
import Honeycomb.File.LammpsData
import Honeycomb.Proofs.Collection.Numbering

/-!
# Types by element

Types are numbered in two places: a collection stores them in its atoms, and a data file numbers the
elements of atoms that have none. Both go through the atoms once, with a table of the numbers that
were given.

* `storeTypes`, `listTypes` — the two loops. A new element gets the next number after the size of the
  table.
* `IsTableOf` — the table is the numbering of what was seen. `IsTableOf.insertIfNew_of_some`,
  `IsTableOf.insertIfNew_of_none` — one round keeps this; `listTypes_eq`, `storeTypes_eq` — what the
  loops make of it.
* `HasCanonicalTypes` — one type for each element, from one on, in the order in which the elements
  first appear.

Principal result: `numberings_agree` — both loops number alike, and the numbers are canonical.
-/

set_option autoImplicit false

namespace Honeycomb

variable {α : Type}

/-! ## Two loops over a table -/

/-- Stores types in the atoms one after another. The type of an element is its number in the table,
or the next one, which the table has from then on. -/
def storeTypes (table : Std.HashMap String Nat) : List (Atom α) → List (Atom α)
  | [] => []
  | a :: atoms =>
    let next := table.size + 1
    { a with type := table.getD a.element next } ::
      storeTypes (table.insertIfNew a.element next) atoms

/-- Lists the types of the atoms one after another, from a table in the same way. -/
def listTypes (table : Std.HashMap String Nat) : List (Atom α) → List Nat
  | [] => []
  | a :: atoms =>
    let next := table.size + 1
    table.getD a.element next :: listTypes (table.insertIfNew a.element next) atoms

/-- The table has a number for each label that was seen, which is its place among them. -/
structure IsTableOf (seen : List String) (table : Std.HashMap String Nat) : Prop where
  size_eq : table.size = seen.length
  getElem?_eq : ∀ label, table[label]? = (seen.findIdx? (· == label)).map (· + 1)

theorem isTableOf_nil : IsTableOf [] ∅ where
  size_eq := by simp
  getElem?_eq := by simp

namespace IsTableOf

variable {seen : List String} {table : Std.HashMap String Nat} {label : String}

theorem mem_iff (h : IsTableOf seen table) :
    label ∈ table ↔ (seen.findIdx? (· == label)).isSome = true := by
  rw [Std.HashMap.mem_iff_isSome_getElem?, h.getElem?_eq, Option.isSome_map]

/-- A label that the table has keeps its number. -/
theorem getD_of_some (h : IsTableOf seen table) {k : Nat}
    (hk : seen.findIdx? (· == label) = some k) (next : Nat) : table.getD label next = k + 1 := by
  rw [Std.HashMap.getD_eq_getD_getElem?, h.getElem?_eq, hk]
  rfl

/-- A new label gets the next number. -/
theorem getD_of_none (h : IsTableOf seen table) (hnone : seen.findIdx? (· == label) = none)
    (next : Nat) : table.getD label next = next := by
  rw [Std.HashMap.getD_eq_getD_getElem?, h.getElem?_eq, hnone]
  rfl

/-- A round with a label that the table has leaves the table as it is. -/
theorem insertIfNew_of_some (h : IsTableOf seen table) {k : Nat}
    (hk : seen.findIdx? (· == label) = some k) (next : Nat) :
    IsTableOf seen (table.insertIfNew label next) := by
  have hmem : label ∈ table := by
    rw [h.mem_iff, hk]
    rfl
  refine ⟨?_, fun other => ?_⟩
  · rw [Std.HashMap.size_insertIfNew, if_pos hmem, h.size_eq]
  · rw [Std.HashMap.getElem?_insertIfNew, if_neg (fun hnew => hnew.2 hmem), h.getElem?_eq]

/-- A round with a new label adds it to what was seen, in the last place. -/
theorem insertIfNew_of_none (h : IsTableOf seen table)
    (hnone : seen.findIdx? (· == label) = none) :
    IsTableOf (seen ++ [label]) (table.insertIfNew label (table.size + 1)) := by
  have hnew : label ∉ table := by
    rw [h.mem_iff, hnone]
    simp
  refine ⟨?_, fun other => ?_⟩
  · rw [Std.HashMap.size_insertIfNew, if_neg hnew, h.size_eq, List.length_append,
      List.length_singleton]
  · rw [Std.HashMap.getElem?_insertIfNew, List.findIdx?_append, h.getElem?_eq]
    by_cases heq : label = other
    · subst heq
      simp [hnew, hnone, h.size_eq]
    · simp [heq]

end IsTableOf

section

variable {seen : List String} {table : Std.HashMap String Nat}

/-- **The loop gives the numbers by first appearance.** -/
theorem listTypes_eq (h : IsTableOf seen table) (atoms : List (Atom α)) :
    listTypes table atoms = numberAfter seen (atoms.map (·.element)) := by
  induction atoms generalizing seen table with
  | nil => rfl
  | cons a atoms ih =>
    rw [listTypes, List.map_cons, numberAfter]
    cases hfind : seen.findIdx? (· == a.element) with
    | some k =>
      dsimp only
      rw [h.getD_of_some hfind, ih (h.insertIfNew_of_some hfind _)]
    | none =>
      dsimp only
      rw [h.getD_of_none hfind, ih (h.insertIfNew_of_none hfind), h.size_eq]

/-- **Both loops number alike**, whatever is in the table. -/
theorem storeTypes_eq (table : Std.HashMap String Nat) (atoms : List (Atom α)) :
    storeTypes table atoms =
      atoms.zipWith (fun a t => { a with type := t }) (listTypes table atoms) := by
  induction atoms generalizing table with
  | nil => rfl
  | cons a atoms ih =>
    rw [storeTypes, listTypes, List.zipWith_cons_cons, ih]

end

theorem atoms_assignTypes (c : Collection α) : c.assignTypes.atoms = storeTypes ∅ c.atoms := by
  rw [storeTypes_eq, listTypes_eq isTableOf_nil]
  rfl

theorem LammpsData.typeIds_eq {atoms : List (Atom α)} (h : ∃ a ∈ atoms, a.type = 0) :
    LammpsData.typeIds atoms = listTypes ∅ atoms := by
  rw [listTypes_eq isTableOf_nil, LammpsData.typeIds, if_neg]
  · rfl
  · simpa using h

/-! ## Canonical types -/

/-- Types are canonical: one for each element, all numbers from one up to a count, and each of them
first occurs behind the first occurrences of those below it. -/
structure HasCanonicalTypes (atoms : List (Atom α)) (count : Nat) : Prop where
  type_eq_iff : ∀ a ∈ atoms, ∀ b ∈ atoms, a.type = b.type ↔ a.element = b.element
  exists_type_iff : ∀ t, (∃ a ∈ atoms, a.type = t) ↔ 1 ≤ t ∧ t ≤ count
  idxOf_lt_idxOf : ∀ s t, 1 ≤ s → s < t → t ≤ count →
    (atoms.map (·.type)).idxOf s < (atoms.map (·.type)).idxOf t

/-- Of two new numbers the lower one is given first. -/
theorem idxOf_numberAfter_lt {seen labels : List String} {s t : Nat}
    (h : s ∈ numberAfter seen labels) (hs : seen.length < s) (hst : s < t) :
    (numberAfter seen labels).idxOf s < (numberAfter seen labels).idxOf t := by
  induction labels generalizing seen with
  | nil => simp [numberAfter] at h
  | cons label rest ih =>
    unfold numberAfter at h ⊢
    split at h
    case h_1 k hk =>
      obtain ⟨hknown, -⟩ := List.findIdx?_eq_some_iff_getElem.1 hk
      have hrest : s ∈ numberAfter seen rest := (List.mem_cons.1 h).resolve_left (by omega)
      rw [List.idxOf_cons_ne _ (by omega), List.idxOf_cons_ne _ (by omega)]
      exact Nat.succ_lt_succ (ih hrest hs)
    case h_2 =>
      rw [List.idxOf_cons_ne (a := t) _ (by omega)]
      rcases List.mem_cons.1 h with rfl | hrest
      · rw [List.idxOf_cons_self]
        exact Nat.succ_pos _
      · by_cases hnext : seen.length + 1 = s
        · rw [hnext, List.idxOf_cons_self]
          exact Nat.succ_pos _
        · have hlength : (seen ++ [label]).length < s := by
            rw [List.length_append, List.length_singleton]
            omega
          rw [List.idxOf_cons_ne _ hnext]
          exact Nat.succ_lt_succ (ih hrest hlength)

theorem hasCanonicalTypes_typedByElement (atoms : List (Atom α)) :
    HasCanonicalTypes (typedByElement atoms) (atoms.map (·.element)).eraseDups.length where
  type_eq_iff a ha b hb := by
    obtain ⟨hmem, htype⟩ := type_of_mem_typedByElement ha
    obtain ⟨-, htype'⟩ := type_of_mem_typedByElement hb
    rw [htype, htype', Nat.succ_inj, List.idxOf_inj hmem]
  exists_type_iff t := by
    rw [← mem_firstAppearance_iff, ← types_typedByElement, List.mem_map]
  idxOf_lt_idxOf s t hone hst ht := by
    rw [types_typedByElement]
    exact idxOf_numberAfter_lt (mem_firstAppearance_iff.2 ⟨hone, by omega⟩) hone hst

/-- **The two numberings agree and are canonical.** Storing types and listing them go through the
atoms with a table of their own; when some atom has no type, what is listed for a file is what would
be stored. Atoms with stored types have one type just when they have one element, the types are the
numbers up to the number of elements, and these first occur one after another. -/
theorem numberings_agree (c : Collection α) :
    c.assignTypes.atoms = storeTypes ∅ c.atoms ∧
      ((∃ a ∈ c.atoms, a.type = 0) → LammpsData.typeIds c.atoms = listTypes ∅ c.atoms ∧
        LammpsData.typeIds c.atoms = c.assignTypes.types) ∧
      c.assignTypes.elements = c.elements ∧
      HasCanonicalTypes c.assignTypes.atoms c.elementCount := by
  refine ⟨atoms_assignTypes c, fun huntyped => ⟨LammpsData.typeIds_eq huntyped, ?_⟩, ?_, ?_⟩
  · have hstored : c.assignTypes.types = firstAppearance c.elements :=
      types_typedByElement c.atoms
    rw [LammpsData.typeIds_eq huntyped, listTypes_eq isTableOf_nil, hstored]
    rfl
  · exact map_typedByElement (fun _ _ => rfl) c.atoms
  · exact hasCanonicalTypes_typedByElement c.atoms

/-- Two carbons, of which one has a type, and a nitrogen. -/
def partlyTyped : Collection Double where
  atoms := [{ Atom.placed "C" 0 with type := 5 }, Atom.placed "N" 0, Atom.placed "C" 0]
  params := {}
  typeTable := none
  revision := 0

/-- The type that is there does not count. -/
theorem numberings_agree_partlyTyped :
    LammpsData.typeIds partlyTyped.atoms = [1, 2, 1] ∧ partlyTyped.assignTypes.types = [1, 2, 1] := by
  have huntyped : ∃ a ∈ partlyTyped.atoms, a.type = 0 := by
    decide +kernel
  obtain ⟨-, hagree, -, -⟩ := numberings_agree partlyTyped
  have hlisted : LammpsData.typeIds partlyTyped.atoms = [1, 2, 1] := by
    decide +kernel
  exact ⟨hlisted, (hagree huntyped).2.symm.trans hlisted⟩

end Honeycomb
