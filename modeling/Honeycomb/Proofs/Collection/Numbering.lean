import Mathlib
import Honeycomb.Collection.Numbering
import Honeycomb.Proofs.Lists

/-!
# Numbers by first appearance

* `firstAppearance_eq` — the number of a label is its place among the different labels, in the order
  in which they first appear. `eq_of_firstAppearance` — labels of one number are equal.
  `mem_firstAppearance_iff` — the numbers are those up to the number of different labels.
* `types_typedByElement`, `type_of_mem_typedByElement` — the types of atoms that are typed by their
  elements; `map_typedByElement` — nothing else of them changes.
-/

set_option autoImplicit false

namespace Honeycomb

/-! ## Labels -/

/-- The labels that were seen come first, and then the others as they first appear. -/
theorem numberAfter_eq (seen labels : List String) : numberAfter seen labels =
    labels.map fun label => (seen ++ (labels.removeAll seen).eraseDups).idxOf label + 1 := by
  induction labels generalizing seen with
  | nil => rfl
  | cons label rest ih =>
    unfold numberAfter
    split
    case h_1 k hk =>
      obtain ⟨hlt, hindex⟩ := List.findIdx?_eq_some_iff_findIdx_eq.1 hk
      have hmem : label ∈ seen := by
        rw [← List.idxOf_lt_length_iff, List.idxOf, hindex]
        exact hlt
      have hskip : (label :: rest).removeAll seen = rest.removeAll seen := by
        simp [List.removeAll, hmem]
      rw [hskip, List.map_cons, List.idxOf_append_of_mem hmem, List.idxOf, hindex, ih]
    case h_2 hnone =>
      have hnew : label ∉ seen := by
        intro hmem
        simpa using List.findIdx?_eq_none_iff.1 hnone label hmem
      -- the label is the next one that is seen, wherever it occurs behind
      have horder : seen ++ ((label :: rest).removeAll seen).eraseDups =
          (seen ++ [label]) ++ (rest.removeAll (seen ++ [label])).eraseDups := by
        have hcons : (label :: rest).removeAll seen = label :: rest.removeAll seen := by
          simp [List.removeAll, hnew]
        have hrest : (rest.removeAll seen).filter (fun b => !b == label) =
            rest.removeAll (seen ++ [label]) := by
          rw [List.removeAll, List.removeAll, List.filter_filter]
          refine List.filter_congr fun b _ => ?_
          simp [Bool.beq_eq_decide_eq, Bool.and_comm]
        rw [hcons, List.eraseDups_cons, hrest, List.append_assoc, List.singleton_append]
      have hindex : (seen ++ [label]).idxOf label = seen.length := by
        rw [List.idxOf_append_of_notMem hnew, List.idxOf_cons_self, Nat.add_zero]
      rw [horder, List.map_cons, ih, List.idxOf_append_of_mem (by simp), hindex]

/-- **A label is numbered by its place** among the different labels, in the order in which they first
appear. -/
theorem firstAppearance_eq (labels : List String) :
    firstAppearance labels = labels.map fun label => labels.eraseDups.idxOf label + 1 := by
  rw [firstAppearance, numberAfter_eq]
  simp [List.removeAll]

/-- Labels of one number are equal. -/
theorem eq_of_firstAppearance {labels : List String} {p q : String × Nat}
    (hp : p ∈ labels.zip (firstAppearance labels)) (hq : q ∈ labels.zip (firstAppearance labels))
    (h : p.2 = q.2) : p.1 = q.1 := by
  have hpair : ∀ r ∈ labels.zip (firstAppearance labels),
      r.1 ∈ labels.eraseDups ∧ r.2 = labels.eraseDups.idxOf r.1 + 1 := by
    intro r hr
    rw [firstAppearance_eq, ← List.map_prod_left_eq_zip] at hr
    obtain ⟨label, hlabel, rfl⟩ := List.mem_map.1 hr
    exact ⟨List.mem_eraseDups.2 hlabel, rfl⟩
  obtain ⟨hmem, hnumber⟩ := hpair p hp
  rw [hnumber, (hpair q hq).2] at h
  exact (List.idxOf_inj hmem).1 (Nat.succ.inj h)

/-- The numbers that labels get are those up to the number of different labels. -/
theorem mem_firstAppearance_iff {labels : List String} {t : Nat} :
    t ∈ firstAppearance labels ↔ 1 ≤ t ∧ t ≤ labels.eraseDups.length := by
  rw [firstAppearance_eq, List.mem_map]
  constructor
  · rintro ⟨label, hlabel, rfl⟩
    have hlt := List.idxOf_lt_length_iff.2 (List.mem_eraseDups.2 hlabel)
    omega
  · rintro ⟨hone, hle⟩
    have hlt : t - 1 < labels.eraseDups.length := by omega
    refine ⟨labels.eraseDups[t - 1], List.mem_eraseDups.1 (List.getElem_mem hlt), ?_⟩
    rw [(nodup_eraseDups labels).idxOf_getElem]
    omega

/-! ## Atoms -/

variable {α : Type}

theorem map_typedByElement {β : Type} {view : Atom α → β}
    (hview : ∀ a t, view { a with type := t } = view a) (atoms : List (Atom α)) :
    (typedByElement atoms).map view = atoms.map view :=
  map_zipWith_of_forall hview (by simp [firstAppearance, length_numberAfter])

theorem types_typedByElement (atoms : List (Atom α)) :
    (typedByElement atoms).map (·.type) = firstAppearance (atoms.map (·.element)) :=
  map_zipWith_eq_marks (fun _ _ => rfl) (by simp [firstAppearance, length_numberAfter])

/-- The type of an atom is the place of its element among the different ones. -/
theorem type_of_mem_typedByElement {atoms : List (Atom α)} {a : Atom α}
    (h : a ∈ typedByElement atoms) :
    a.element ∈ (atoms.map (·.element)).eraseDups ∧
      a.type = (atoms.map (·.element)).eraseDups.idxOf a.element + 1 := by
  have helements : (typedByElement atoms).map (·.element) = atoms.map (·.element) :=
    map_typedByElement (fun _ _ => rfl) atoms
  have htypes : (typedByElement atoms).map (·.type) = (typedByElement atoms).map fun a =>
      (atoms.map (·.element)).eraseDups.idxOf a.element + 1 := by
    rw [types_typedByElement, firstAppearance_eq, ← helements, List.map_map]
    rfl
  refine ⟨?_, List.map_inj_left.1 htypes a h⟩
  rw [List.mem_eraseDups, ← helements]
  exact List.mem_map_of_mem h

end Honeycomb
