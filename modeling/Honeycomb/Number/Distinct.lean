/-!
# Distinct numbers

* `allDistinct` — no number occurs twice, decided by sorting.
-/

set_option autoImplicit false

namespace Honeycomb

/-- Each number is less than the next. -/
def isAscending : List Nat → Bool
  | a :: b :: rest => decide (a < b) && isAscending (b :: rest)
  | _ => true

/-- No number occurs twice. -/
def allDistinct (ns : List Nat) : Bool :=
  isAscending (ns.mergeSort fun a b => decide (a ≤ b))

theorem isAscending_iff {ns : List Nat} (h : ns.Pairwise (· ≤ ·)) :
    isAscending ns = true ↔ ns.Nodup := by
  induction ns with
  | nil => simp [isAscending]
  | cons a rest ih =>
      cases rest with
      | nil => simp [isAscending]
      | cons b rest =>
          obtain ⟨hle, htail⟩ := List.pairwise_cons.mp h
          have hab := hle b List.mem_cons_self
          rw [isAscending, Bool.and_eq_true, ih htail, decide_eq_true_eq]
          constructor
          · rintro ⟨hlt, hnodup⟩
            refine List.nodup_cons.mpr ⟨fun hmem => ?_, hnodup⟩
            rcases List.mem_cons.mp hmem with rfl | hmem
            · omega
            · have := (List.pairwise_cons.mp htail).1 a hmem
              omega
          · intro hall
            obtain ⟨hnot, hnodup⟩ := List.nodup_cons.mp hall
            refine ⟨?_, hnodup⟩
            have : a ≠ b := fun hab => hnot (hab ▸ List.mem_cons_self)
            omega

theorem allDistinct_iff {ns : List Nat} : allDistinct ns = true ↔ ns.Nodup := by
  have hperm := List.mergeSort_perm ns fun a b => decide (a ≤ b)
  have hpairs : (ns.mergeSort fun a b => decide (a ≤ b)).Pairwise
      (fun a b => decide (a ≤ b) = true) :=
    List.pairwise_mergeSort
      (fun a b c hab hbc => by simp only [decide_eq_true_eq] at *; omega)
      (fun a b => by simp only [Bool.or_eq_true, decide_eq_true_eq]; omega) ns
  have hsorted : (ns.mergeSort fun a b => decide (a ≤ b)).Pairwise (· ≤ ·) := by
    simpa using hpairs
  rw [allDistinct, isAscending_iff hsorted, hperm.nodup_iff]

end Honeycomb
