import Honeycomb.Proofs.Neighbor.Nearest

/-!
# Queries as searches of a tree

A query leaves out what is not below the cutoff before it takes the closest points; a search of a
tree does not know the cutoff, which is applied to what it has found.

* `take_filter_of_pairwise`, `mergeSort_filter`, `neighborRow_filter` — a test on the elements of a
  list, made before some step or after it.
* `SpatialIndex.treeSearch` — a search in which ties go by the order in which a tree is searched;
  `SpatialIndex.isExact_treeSearch` — it finds the closest points.

Principal result: `SpatialIndex.query_eq_rowsBy` — a query has the rows of such a search.
-/

set_option autoImplicit false

namespace Honeycomb

/-! ## Tests on sorted lists -/

section

variable {β : Type} {le : β → β → Bool} {p : β → Bool}

/-- In a list in which what passes a test comes first, the test can be made before the first elements
are taken or after that. -/
theorem take_filter_of_pairwise {l : List β} (h : l.Pairwise fun a b => p b = true → p a = true) :
    ∀ k : Nat, (l.filter p).take k = (l.take k).filter p := by
  induction l with
  | nil => simp
  | cons a l ih =>
    obtain ⟨hfirst, hrest⟩ := List.pairwise_cons.1 h
    intro k
    cases k with
    | zero => simp
    | succ k =>
      by_cases hpass : p a = true
      · rw [List.filter_cons_of_pos hpass, List.take_succ_cons, List.take_succ_cons,
          List.filter_cons_of_pos hpass, ih hrest]
      · -- nothing passes after something that fails
        have hnone {m : List β} (hm : m ⊆ l) : m.filter p = [] := by
          rw [List.filter_eq_nil_iff]
          exact fun b hb hpb => hpass (hfirst b (hm hb) hpb)
        rw [List.filter_cons_of_neg hpass, List.take_succ_cons, List.filter_cons_of_neg hpass,
          hnone (List.Subset.refl l), hnone (List.take_subset k l), List.take_nil]

variable (trans : ∀ a b c, le a b = true → le b c = true → le a c = true)

include trans

/-- An element that is put into a sorted list either passes a test or leaves no trace in what does. -/
theorem filter_insertBefore (a : β) {l : List β} (hl : l.Pairwise fun a b => le a b = true) :
    (insertBefore le a l).filter p =
      if p a then insertBefore le a (l.filter p) else l.filter p := by
  obtain ⟨lo, hi, rfl, hlo, hhi⟩ := exists_cut trans a hl
  rw [insertBefore_append hlo hhi, List.filter_append, List.filter_append, List.filter_cons]
  split
  · rw [insertBefore_append (fun b hb => hlo b (List.mem_of_mem_filter hb))
      (fun b hb => hhi b (List.mem_of_mem_filter hb))]
  · rfl

/-- **What passes a test can be sorted before or after the test.** -/
theorem mergeSort_filter (total : ∀ a b, (le a b || le b a) = true) (l : List β) :
    (l.filter p).mergeSort le = (l.mergeSort le).filter p := by
  induction l with
  | nil => simp
  | cons a l ih =>
    rw [mergeSort_cons_eq trans total, filter_insertBefore trans a
      (List.pairwise_mergeSort trans total l), ← ih, List.filter_cons]
    split
    · rw [mergeSort_cons_eq trans total]
    · rfl

end

/-- **A test can be made before the point itself is left out or after that**, if what passes it comes
first. -/
theorem neighborRow_filter {α : Type} {n i : Nat} {near : List (Hit α)} {p : Hit α → Bool}
    (hnear : (near.map (·.index)).Nodup) (hlength : near.length ≤ n + 1)
    (hp : near.Pairwise fun a b => p b = true → p a = true) :
    neighborRow n i (near.filter p) = (neighborRow n i near).filter p := by
  have hkept : ((near.filter p).map (·.index)).Nodup := hnear.sublist (List.filter_sublist.map _)
  unfold neighborRow
  by_cases hself : near.any (·.index == i) = true
  · obtain ⟨herase, hone⟩ := eraseP_eq_filter hnear hself
    rw [if_pos hself]
    by_cases hpass : (near.filter p).any (·.index == i) = true
    · rw [if_pos hpass, (eraseP_eq_filter hkept hpass).1, herase, List.filter_filter,
        List.filter_filter]
      exact List.filter_congr fun _ _ => Bool.and_comm ..
    · -- the point itself fails the test, so that nothing is one too many
      have hothers : near.filter p = (near.filter (·.index != i)).filter p := by
        rw [List.filter_filter]
        refine List.filter_congr fun hit hhit => ?_
        by_cases hi : hit.index = i
        · have hfail : p hit = false := by
            rw [← Bool.not_eq_true]
            intro hkeep
            exact hpass (List.any_eq_true.2
              ⟨hit, List.mem_filter.2 ⟨hhit, hkeep⟩, beq_iff_eq.2 hi⟩)
          rw [hfail, Bool.false_and]
        · rw [bne_iff_ne.2 hi, Bool.and_true]
      have hfewer := List.length_filter_le p (near.filter (·.index != i))
      rw [← herase] at hfewer
      rw [if_neg hpass, hothers, ← herase, List.take_of_length_le (by omega)]
  · have hpass : ¬(near.filter p).any (·.index == i) = true := by
      intro hpass
      obtain ⟨hit, hhit, hi⟩ := List.any_eq_true.1 hpass
      exact hself (List.any_eq_true.2 ⟨hit, List.mem_of_mem_filter hhit, hi⟩)
    rw [if_neg hself, if_neg hpass, take_filter_of_pairwise hp]

namespace SpatialIndex

/-! ## The search that runs -/

/-- A search for the closest points in which ties go by the order in which the points of a tree are
found. -/
def treeSearch {α : Type} [Scalar α] : NearestSearch α := fun norm points center k =>
  match PointTree.ofPoints? points.zipIdx with
  | none => []
  | some tree => least isCloser k (hit? norm (fun _ => true) center)
      (foundFirst points.length (tree.search norm center ⟨min k points.length, none⟩) points.zipIdx)

section

variable {α : Type} [Scalar α] {norm : Norm α} {points : List (Vec3 α)} {center : Vec3 α}
  {order : List (Numbered α)} {cutoff : Option α} {hits : List (Hit α)} {n i k : Nat}

/-- Points in any order have the same hits. -/
theorem filterMap_hit?_perm (horder : order.Perm points.zipIdx) :
    (order.filterMap (hit? norm (fun _ => true) center)).Perm (allHits norm points center) := by
  have hall : hit? norm (fun _ => true) center =
      some ∘ fun p : Numbered α => (⟨p.2, norm.distance center p.1⟩ : Hit α) := rfl
  rw [hall, List.filterMap_eq_map]
  exact horder.map _

/-- The cutoff can be applied to the hits or before. -/
theorem filterMap_hit?_isBelow :
    order.filterMap (hit? norm (isBelow cutoff) center) =
      (order.filterMap (hit? norm (fun _ => true) center)).filter fun hit =>
        isBelow cutoff hit.distance := by
  rw [List.filter_filterMap]
  refine List.filterMap_congr fun p _ => ?_
  simp [hit?, Option.filter]

variable [SortedScalar α]

/-- With what is below the cutoff, all that comes before it is below the cutoff. -/
theorem pairwise_isBelow (cutoff : Option α) (hzero : ∀ hit ∈ hits, 0 ≤ hit.distance) :
    (byDistance hits).Pairwise fun a b =>
      isBelow cutoff b.distance = true → isBelow cutoff a.distance = true := by
  refine (pairwise_byDistance hits).imp_of_mem fun {a b} ha hb hcloser hbelow => ?_
  have ha := hzero a ((List.mergeSort_perm _ _).mem_iff.1 ha)
  have hb := hzero b ((List.mergeSort_perm _ _).mem_iff.1 hb)
  refine isBelow_of_le hbelow ha (SortedScalar.le_of_before ?_ ?_ hcloser)
  · exact SortedScalar.le_self_of_le ha
  · exact SortedScalar.le_self_of_le hb

/-- **The cutoff can be applied last.** Rows come out the same. -/
theorem neighborRow_least (horder : order.Perm points.zipIdx)
    (hdistance : ∀ p ∈ points, 0 ≤ norm.distance center p) :
    neighborRow n i (least isCloser (n + 1) (hit? norm (isBelow cutoff) center) order) =
      (neighborRow n i (least isCloser (n + 1) (hit? norm (fun _ => true) center) order)).filter
        fun hit => isBelow cutoff hit.distance := by
  have hhits : (order.filterMap (hit? norm (fun _ => true) center)).Perm
      (allHits norm points center) := filterMap_hit?_perm horder
  rw [least_eq_take_byDistance, least_eq_take_byDistance, filterMap_hit?_isBelow]
  generalize order.filterMap (hit? norm (fun _ => true) center) = hits at hhits
  have hzero : ∀ hit ∈ hits, 0 ≤ hit.distance := by
    intro hit hhit
    obtain ⟨p, hp, hdist⟩ := exists_of_mem_allHits (hhits.mem_iff.1 hhit)
    exact hdist ▸ hdistance p hp
  have hbelow := pairwise_isBelow cutoff hzero
  have hnodup : ((byDistance hits).map (·.index)).Nodup := by
    have hperm : (byDistance hits).Perm (allHits norm points center) :=
      (List.mergeSort_perm _ _).trans hhits
    exact (hperm.map _).nodup_iff.2 (nodup_index_allHits ..)
  have hsorted : byDistance (hits.filter fun hit => isBelow cutoff hit.distance) =
      (byDistance hits).filter fun hit => isBelow cutoff hit.distance :=
    mergeSort_filter (fun a b c => Scalar.before_trans a.distance b.distance c.distance)
      (fun a b => Scalar.before_total a.distance b.distance) hits
  rw [hsorted, take_filter_of_pairwise hbelow]
  exact neighborRow_filter (hnodup.sublist ((List.take_sublist _ _).map _))
    (List.length_take_le _ _) (hbelow.sublist (List.take_sublist _ _))

theorem isExact_treeSearch : (treeSearch : NearestSearch α).IsExact := by
  intro norm points center k _ _ hdistance
  unfold treeSearch
  cases htree : PointTree.ofPoints? points.zipIdx with
  | none =>
    have hnil : (⟨points, norm, 0⟩ : SpatialIndex α).points = [] := points_eq_nil_of_ofPoints? htree
    obtain rfl : points = [] := hnil
    exact ⟨.nil, by simp [allHits], [], .refl _, by simp⟩
  | some tree =>
    dsimp only
    rw [least_eq_take_byDistance]
    exact areFirst_byDistance (filterMap_hit?_perm (foundFirst_perm _ _ _)) hdistance k

/-- **A query is a search of a tree**, the cutoff applied last. -/
theorem query_eq_rowsBy {index : SpatialIndex α}
    (hdistance : ∀ p ∈ index.points, ∀ q ∈ index.points, 0 ≤ index.norm.distance p q) :
    index.query n cutoff = index.rowsBy treeSearch n cutoff := by
  unfold query rowsBy treeSearch
  cases htree : PointTree.ofPoints? index.points.zipIdx with
  | none => rw [points_eq_nil_of_ofPoints? htree]; rfl
  | some tree =>
    refine List.map_congr_left fun ⟨p, i⟩ hp => ?_
    have hmem : p ∈ index.points := (List.mem_zipIdx' hp).2 ▸ List.getElem_mem _
    dsimp only
    rw [neighborRow_least (foundFirst_perm _ _ _) (hdistance p hmem)]
    rfl

end

end SpatialIndex

end Honeycomb
