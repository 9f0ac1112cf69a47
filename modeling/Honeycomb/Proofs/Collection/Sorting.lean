import Mathlib
import Honeycomb.Collection.Order
import Honeycomb.Proofs.Number.TotalOrder

/-!
# Sorted collections

* `SortKey.Precedes` — the order of the atoms under a key: numbers and names ascend, coordinates are
  in the total order of doubles, and the parts of the composite key are compared one after another.
  `SortKey.ties` — atoms with equal keys.
* `SortKey.before_iff` — what the sort compares by is this order, in which exactly one of three holds
  of two atoms (`SortKey.ties_iff`).
* `filter_mergeSort_of_ties` — elements that are all equal for a sort keep their order in it.
* `IsStablySorted` — what a stable sort in one direction makes of atoms.
* `Collection.atoms_sort_eq_of_perm` — distinct composite keys leave one order.

Principal result: `sort_is_stable` — every sort is a stable one, also in reverse, changes nothing
when it is done again, and by distinct composite keys leads to one sequence.
-/

set_option autoImplicit false

namespace Honeycomb

/-! ## Keys -/

namespace SortKey

/-- The composite key of an atom: element, atomic number, type, molecule and id, of which the first
that differs decides. -/
def compositeOf {α : Type} (a : Atom α) : String ×ₗ Nat ×ₗ Nat ×ₗ Nat ×ₗ Nat :=
  toLex (a.element, toLex (a.atomicNumber, toLex (a.type, toLex (a.molecule, a.id))))

/-- The key of the first atom is below the one of the second. -/
def Precedes : SortKey → Atom Double → Atom Double → Prop
  | composite, a, b => compositeOf a < compositeOf b
  | id, a, b => a.id < b.id
  | element, a, b => a.element < b.element
  | molecule, a, b => a.molecule < b.molecule
  | type, a, b => a.type < b.type
  | coordinate axis, a, b => (a.position.along axis).Precedes (b.position.along axis)

/-- The atoms have equal keys. -/
def ties : SortKey → Atom Double → Atom Double → Bool
  | composite, a, b => decide (compositeOf a = compositeOf b)
  | id, a, b => decide (a.id = b.id)
  | element, a, b => decide (a.element = b.element)
  | molecule, a, b => decide (a.molecule = b.molecule)
  | type, a, b => decide (a.type = b.type)
  | coordinate axis, a, b =>
    decide ((a.position.along axis).bits = (b.position.along axis).bits)

variable {key : SortKey} {a b c : Atom Double}

theorem before_composite_iff {α : Type} [Scalar α] {a b : Atom α} :
    composite.before a b = true ↔ compositeOf a ≤ compositeOf b := by
  simp only [before, compareAll, compositeOf, Ordering.isLE_then_iff_or, Prod.Lex.toLex_le_toLex,
    compare_lt_iff_lt, compare_eq_iff_eq, Std.isLE_compare]

/-- **What the sort compares by is the order of the keys.** -/
theorem before_iff : key.before a b = true ↔ ¬key.Precedes b a := by
  cases key with
  | composite => rw [before_composite_iff, Precedes, not_lt]
  | id => simp [before, Precedes]
  | element =>
    rw [before, Precedes, not_lt, ← Ordering.ne_gt_iff_isLE]
    exact compare_le_iff_le
  | molecule => simp [before, Precedes]
  | type => simp [before, Precedes]
  | coordinate axis => exact before_iff_not_precedes

/-- **Of two atoms one precedes the other or their keys are equal.** -/
theorem ties_iff : key.ties a b = true ↔ ¬key.Precedes a b ∧ ¬key.Precedes b a := by
  cases key with
  | coordinate axis =>
    rw [ties, decide_eq_true_iff]
    exact bits_eq_iff_not_precedes
  | _ =>
    simp only [ties, Precedes, decide_eq_true_iff, not_lt]
    rw [and_comm, ← le_antisymm_iff]

theorem ties_iff_before :
    key.ties a b = true ↔ key.before a b = true ∧ key.before b a = true := by
  rw [ties_iff, before_iff, before_iff, and_comm]

theorem before_total (key : SortKey) (a b : Atom Double) :
    (key.before a b || key.before b a) = true := by
  rw [Bool.or_eq_true]
  cases key with
  | composite =>
    rw [before_composite_iff, before_composite_iff]
    exact le_total _ _
  | coordinate axis =>
    rw [← Bool.or_eq_true]
    exact Scalar.before_total _ _
  | _ =>
    rw [before_iff, before_iff, Precedes, Precedes, not_lt, not_lt]
    exact le_total _ _

theorem before_trans (hab : key.before a b = true) (hbc : key.before b c = true) :
    key.before a c = true := by
  cases key with
  | composite =>
    rw [before_composite_iff] at *
    exact hab.trans hbc
  | coordinate axis => exact Scalar.before_trans _ _ _ hab hbc
  | _ =>
    rw [before_iff, Precedes, not_lt] at *
    exact hab.trans hbc

end SortKey

/-! ## Stable sorts -/

/-- **A stable sort leaves those that are equal for it in their order.** -/
theorem filter_mergeSort_of_ties {β : Type} {le : β → β → Bool}
    (htrans : ∀ x y z, le x y = true → le y z = true → le x z = true)
    (htotal : ∀ x y, (le x y || le y x) = true) {p : β → Bool}
    (hp : ∀ x y, p x = true → p y = true → le x y = true) (xs : List β) :
    (xs.mergeSort le).filter p = xs.filter p := by
  have htied : (xs.filter p).Pairwise fun x y => le x y = true := by
    refine List.pairwise_of_forall_mem_list ?_
    intro x hx y hy
    exact hp x y (List.mem_filter.1 hx).2 (List.mem_filter.1 hy).2
  -- those that are equal are in order already, so that the sort keeps them as they are
  have hkept : (xs.filter p).Sublist (xs.mergeSort le) :=
    List.sublist_mergeSort htrans htotal htied List.filter_sublist
  have hsublist : (xs.filter p).Sublist ((xs.mergeSort le).filter p) := by
    simpa using hkept.filter p
  have hlength : (xs.filter p).length = ((xs.mergeSort le).filter p).length :=
    ((List.mergeSort_perm xs le).filter p).length_eq.symm
  exact (hsublist.eq_of_length hlength).symm

/-- What a stable sort by a key makes of atoms: the same atoms, in the order of the key or against
it, and those with equal keys in the order in which they were. -/
structure IsStablySorted (key : SortKey) (reverse : Bool) (atoms sorted : List (Atom Double)) :
    Prop where
  perm : sorted.Perm atoms
  ordered : sorted.Pairwise fun a b => if reverse then ¬key.Precedes a b else ¬key.Precedes b a
  stable : ∀ a, sorted.filter (key.ties a) = atoms.filter (key.ties a)

/-- What a sort compares by, in its direction. -/
def SortKey.directed (key : SortKey) (reverse : Bool) (a b : Atom Double) : Bool :=
  if reverse then key.before b a else key.before a b

namespace SortKey

variable {key : SortKey} {reverse : Bool} {a b c : Atom Double}

theorem directed_total (key : SortKey) (reverse : Bool) (a b : Atom Double) :
    (key.directed reverse a b || key.directed reverse b a) = true := by
  cases reverse with
  | false => exact key.before_total a b
  | true => exact key.before_total b a

theorem directed_trans (key : SortKey) (reverse : Bool) (a b c : Atom Double)
    (hab : key.directed reverse a b = true) (hbc : key.directed reverse b c = true) :
    key.directed reverse a c = true := by
  cases reverse with
  | false => exact before_trans hab hbc
  | true => exact before_trans hbc hab

theorem directed_iff : key.directed reverse a b = true ↔
    if reverse then ¬key.Precedes a b else ¬key.Precedes b a := by
  cases reverse with
  | false => exact before_iff
  | true => exact before_iff

/-- Atoms have equal keys when they are in order either way. -/
theorem ties_iff_directed :
    key.ties a b = true ↔ key.directed reverse a b = true ∧ key.directed reverse b a = true := by
  rw [ties_iff_before]
  cases reverse with
  | false => rfl
  | true => exact and_comm

theorem directed_of_ties (hb : key.ties a b = true) (hc : key.ties a c = true) :
    key.directed reverse b c = true :=
  key.directed_trans reverse b a c (ties_iff_directed.1 hb).2 (ties_iff_directed.1 hc).1

end SortKey

namespace Collection

variable (c : Collection Double) (key : SortKey) (reverse : Bool) (r : Revision)

theorem atoms_sort :
    ((c.sort key reverse).run r).1.atoms = c.atoms.mergeSort (key.directed reverse) :=
  rfl

/-- The atoms are in order behind a sort. -/
theorem pairwise_sort : ((c.sort key reverse).run r).1.atoms.Pairwise fun a b =>
    key.directed reverse a b = true := by
  rw [atoms_sort]
  exact List.pairwise_mergeSort (key.directed_trans reverse)
    (key.directed_total reverse) c.atoms

theorem isStablySorted_sort :
    IsStablySorted key reverse c.atoms ((c.sort key reverse).run r).1.atoms where
  perm := c.sort_perm key reverse r
  ordered := (c.pairwise_sort key reverse r).imp fun h => SortKey.directed_iff.1 h
  stable a := by
    rw [atoms_sort]
    refine filter_mergeSort_of_ties (key.directed_trans reverse)
      (key.directed_total reverse) ?_ c.atoms
    intro b b' hb hb'
    exact SortKey.directed_of_ties hb hb'

/-- A sort of sorted atoms changes nothing. -/
theorem atoms_sort_sort (r' : Revision) :
    ((((c.sort key reverse).run r).1.sort key reverse).run r').1.atoms =
      ((c.sort key reverse).run r).1.atoms := by
  rw [atoms_sort]
  exact List.mergeSort_of_pairwise (c.pairwise_sort key reverse r)

/-- **Distinct composite keys leave one order**, whatever the order was before. -/
theorem atoms_sort_eq_of_perm {d : Collection Double} (hperm : d.atoms.Perm c.atoms)
    (hdistinct : (c.atoms.map SortKey.compositeOf).Nodup) (r' : Revision) :
    ((d.sort .composite reverse).run r').1.atoms =
      ((c.sort .composite reverse).run r).1.atoms := by
  have hsorted : ((d.sort .composite reverse).run r').1.atoms.Perm
      ((c.sort .composite reverse).run r).1.atoms :=
    (d.sort_perm .composite reverse r').trans (hperm.trans (c.sort_perm .composite reverse r).symm)
  refine hsorted.eq_of_pairwise ?_ (d.pairwise_sort .composite reverse r')
    (c.pairwise_sort .composite reverse r)
  intro a b ha hb hab hba
  have hties : SortKey.composite.ties a b = true := SortKey.ties_iff_directed.2 ⟨hab, hba⟩
  have hkeys : SortKey.compositeOf a = SortKey.compositeOf b := of_decide_eq_true hties
  have hmem : a ∈ c.atoms := (hsorted.trans (c.sort_perm .composite reverse r)).mem_iff.1 ha
  have hmem' : b ∈ c.atoms := (c.sort_perm .composite reverse r).mem_iff.1 hb
  exact List.inj_on_of_nodup_map hdistinct hmem hmem' hkeys

/-- **Every sort is stable**: for every key and in either direction it puts the same atoms in the
order of the key, leaves those with equal keys in the order in which they were, and changes nothing
when it is done again. By composite keys that are distinct it leads to one sequence, whatever the
order was before. -/
theorem sort_is_stable :
    IsStablySorted key reverse c.atoms ((c.sort key reverse).run r).1.atoms ∧
      (∀ r', ((((c.sort key reverse).run r).1.sort key reverse).run r').1.atoms =
        ((c.sort key reverse).run r).1.atoms) ∧
      ((c.atoms.map SortKey.compositeOf).Nodup →
        ∀ (d : Collection Double) (r' : Revision), d.atoms.Perm c.atoms →
          ((d.sort .composite reverse).run r').1.atoms =
            ((c.sort .composite reverse).run r).1.atoms) :=
  ⟨c.isStablySorted_sort key reverse r, c.atoms_sort_sort key reverse r,
    fun hdistinct _ r' hperm => c.atoms_sort_eq_of_perm reverse r hperm hdistinct r'⟩

/-- Two carbons against the order of their ids. -/
def twoCarbons : Collection Double where
  atoms := [{ Atom.placed "C" 0 with id := 2 }, { Atom.placed "C" 0 with id := 1 }]
  params := {}
  typeTable := none
  revision := 0

/-- The carbons keep their order under their common element, in reverse too, and get one order by
their composite keys. -/
theorem sort_is_stable_carbons :
    ((twoCarbons.sort .element true).run 1).1.atoms = twoCarbons.atoms ∧
      (({ twoCarbons with atoms := twoCarbons.atoms.reverse }.sort .composite false).run 1).1.atoms =
        ((twoCarbons.sort .composite false).run 1).1.atoms := by
  obtain ⟨hsorted, -, -⟩ := sort_is_stable twoCarbons .element true 1
  obtain ⟨-, -, hunique⟩ := sort_is_stable twoCarbons .composite false 1
  have htied : ∀ a ∈ twoCarbons.atoms,
      SortKey.element.ties { Atom.placed "C" 0 with id := 2 } a = true := by
    decide +kernel
  refine ⟨?_, hunique (by decide +kernel) _ 1 (List.reverse_perm _)⟩
  have hstable := hsorted.stable { Atom.placed "C" 0 with id := 2 }
  rwa [List.filter_eq_self.2 htied,
    List.filter_eq_self.2 fun a ha => htied a (hsorted.perm.mem_iff.1 ha)] at hstable

end Collection

end Honeycomb
