import Mathlib
import Honeycomb.Neighbor.SpatialIndex

/-!
# What a spatial index finds

* `SpatialIndex.ofPoints?_eq_some_iff`, `SpatialIndex.ofPoints?_eq_none_iff` — an index is over all
  points it was asked for, and these are finite; there is none over no points.
* `mem_neighborRow` — a point is no neighbor of itself.
* `SpatialIndex.mem_row` — whatever order decides among equally far points, a row of neighbors has
  other points than its own, with their distances.

Principal results: `SpatialIndex.query_spec` — a query has one row for each point, of other points
with their distances; `SpatialIndex.query_eq_closest` — without ties it has the closest points,
whatever the order in which a search comes across them.
-/

set_option autoImplicit false

namespace Honeycomb

variable {α : Type}

/-! ## Making an index -/

namespace SpatialIndex

section

variable [Scalar α] {points : List (Vec3 α)} {norm : Norm α} {revision : Revision}
  {index : SpatialIndex α}

theorem findIdx?_finite_eq_none_iff :
    points.findIdx? (!·.isFinite) = none ↔ ∀ p ∈ points, p.isFinite = true := by
  simp [List.findIdx?_eq_none_iff]

theorem exists_findIdx?_finite_iff :
    (∃ i, points.findIdx? (!·.isFinite) = some i) ↔ ∃ p ∈ points, p.isFinite = false := by
  rw [← Option.isSome_iff_exists, List.findIdx?_isSome]
  simp

/-- An index is over finite points, and there are some. -/
theorem ofPoints?_eq_some_iff :
    ofPoints? points norm revision = .ok (some index) ↔
      (∀ p ∈ points, p.isFinite = true) ∧ points ≠ [] ∧ index = ⟨points, norm, revision⟩ := by
  unfold ofPoints?
  rw [← findIdx?_finite_eq_none_iff]
  cases points.findIdx? (!·.isFinite) with
  | some i => simp
  | none =>
    cases points with
    | nil => simp
    | cons p rest => simp [eq_comm]

/-- There is no index over no points. -/
theorem ofPoints?_eq_none_iff : ofPoints? points norm revision = .ok none ↔ points = [] := by
  unfold ofPoints?
  cases points with
  | nil => simp
  | cons p rest =>
    cases (p :: rest).findIdx? (!·.isFinite) <;> simp

end

end SpatialIndex

/-! ## Rows -/

/-- A point is no neighbor of itself, and what is near once is a neighbor once. -/
theorem mem_neighborRow {n i : Nat} {near : List (Hit α)} (hnear : (near.map (·.index)).Nodup)
    {hit : Hit α} (h : hit ∈ neighborRow n i near) : hit ∈ near ∧ hit.index ≠ i := by
  unfold neighborRow at h
  split at h
  · refine ⟨List.mem_of_mem_eraseP h, fun hi => ?_⟩
    -- the first hit with the number is taken out, and there is no second one
    rename_i hany
    obtain ⟨self, hself, hselfIndex⟩ := List.any_eq_true.1 hany
    obtain ⟨first, before, rest, hbefore, hfirst, rfl, herase⟩ :=
      List.exists_of_eraseP (p := fun h : Hit α => h.index == i) hself hselfIndex
    rw [herase] at h
    rw [List.map_append, List.map_cons, List.nodup_append, List.nodup_cons] at hnear
    have hfirst : first.index = i := by simpa using hfirst
    rcases List.mem_append.1 h with h | h
    · exact hnear.2.2 _ (List.mem_map_of_mem h) _ List.mem_cons_self (hi.trans hfirst.symm)
    · exact hnear.2.1.1 (hfirst ▸ hi ▸ List.mem_map_of_mem h)
  · rename_i hany
    refine ⟨List.mem_of_mem_take h, fun hi => hany ?_⟩
    exact List.any_eq_true.2 ⟨hit, List.mem_of_mem_take h, by simpa using hi⟩

namespace SpatialIndex

variable [Scalar α] {index : SpatialIndex α}

theorem hit?_eq_some_iff {norm : Norm α} {keeps : α → Bool} {center : Vec3 α} {p : Numbered α}
    {hit : Hit α} : hit? norm keeps center p = some hit ↔
      keeps (norm.distance center p.1) = true ∧ hit = ⟨p.2, norm.distance center p.1⟩ := by
  unfold hit?
  dsimp only
  rw [Option.ite_none_right_eq_some, Option.some.injEq, eq_comm (b := hit)]

/-- The hits among points with different numbers have different numbers. -/
theorem nodup_index_filterMap_hit? (norm : Norm α) (keeps : α → Bool) (center : Vec3 α)
    {numbered : List (Numbered α)} (h : (numbered.map (·.2)).Nodup) :
    ((numbered.filterMap (hit? norm keeps center)).map (·.index)).Nodup := by
  refine h.sublist ?_
  induction numbered with
  | nil => exact List.Sublist.refl _
  | cons p rest ih =>
    have ih := ih (List.nodup_cons.1 h).2
    rw [List.filterMap_cons]
    split
    · exact ih.cons _
    · rename_i hit hhit
      obtain ⟨-, rfl⟩ := hit?_eq_some_iff.1 hhit
      exact ih.cons_cons _

/-- What a row of neighbors consists of. -/
theorem mem_row {order : List (Numbered α)} (horder : order.Perm index.points.zipIdx) {n i : Nat}
    {cutoff : Option α} {center : Vec3 α} {hit : Hit α}
    (h : hit ∈ neighborRow n i
      (least isCloser (n + 1) (hit? index.norm (isBelow cutoff) center) order)) :
    hit.index ≠ i ∧ ∃ q, index.points[hit.index]? = some q ∧
      hit.distance = index.norm.distance center q := by
  rw [least_eq_take_byDistance] at h
  have hsorted := List.mergeSort_perm
    (order.filterMap (hit? index.norm (isBelow cutoff) center)) isCloser
  have hnumbers : (order.map (·.2)).Nodup := by
    rw [(horder.map _).nodup_iff, List.zipIdx_map_snd]
    exact List.nodup_range'
  have hnodup := nodup_index_filterMap_hit? index.norm (isBelow cutoff) center hnumbers
  rw [← (hsorted.map _).nodup_iff] at hnodup
  obtain ⟨hmem, hother⟩ := mem_neighborRow (hnodup.sublist ((List.take_sublist _ _).map _)) h
  refine ⟨hother, ?_⟩
  obtain ⟨p, hp, hhit⟩ := List.mem_filterMap.1 (hsorted.mem_iff.1 (List.mem_of_mem_take hmem))
  obtain ⟨-, rfl⟩ := hit?_eq_some_iff.1 hhit
  exact ⟨p.1, List.mem_zipIdx_iff_getElem?.1 (horder.mem_iff.1 hp), rfl⟩

theorem length_rowsIn (order : Vec3 α → List (Numbered α) → List (Numbered α)) (n : Nat)
    (cutoff : Option α) : (index.rowsIn order n cutoff).length = index.size := by
  simp [rowsIn, size]

theorem length_closest (n : Nat) (cutoff : Option α) :
    (index.closest n cutoff).length = index.size :=
  length_rowsIn _ n cutoff

theorem points_eq_nil_of_ofPoints? (h : PointTree.ofPoints? index.points.zipIdx = none) :
    index.points = [] := by
  cases hpoints : index.points with
  | nil => rfl
  | cons p rest => simp [hpoints, PointTree.ofPoints?] at h

/-- **A query finds for each point other points with their distances.** -/
theorem query_spec (index : SpatialIndex α) (n : Nat) (cutoff : Option α) :
    (index.query n cutoff).length = index.size ∧
      ∀ (i : Nat) (row : List (Hit α)), (index.query n cutoff)[i]? = some row →
        ∀ hit ∈ row, hit.index ≠ i ∧ ∃ p q, index.points[i]? = some p ∧
          index.points[hit.index]? = some q ∧ hit.distance = index.norm.distance p q := by
  unfold query
  cases htree : PointTree.ofPoints? index.points.zipIdx with
  | none =>
    simp [size, points_eq_nil_of_ofPoints? htree]
  | some tree =>
    refine ⟨length_rowsIn _ n cutoff, fun i row hrow hit hhit => ?_⟩
    unfold rowsIn at hrow
    simp only [List.getElem?_map, List.getElem?_zipIdx, Option.map_eq_some_iff] at hrow
    obtain ⟨-, ⟨p, hp, rfl⟩, rfl⟩ := hrow
    dsimp only at hhit
    split at hhit
    · cases hhit
    · rw [Nat.zero_add] at hhit
      obtain ⟨hother, q, hq, hdistance⟩ := mem_row (foundFirst_perm _ _ _) hhit
      exact ⟨hother, p, q, hp, hq, hdistance⟩

/-! ## Ties -/

/-- The hits of a search around a place, by number. -/
def hitsAround (index : SpatialIndex α) (cutoff : Option α) (center : Vec3 α) : List (Hit α) :=
  index.points.zipIdx.filterMap (hit? index.norm (isBelow cutoff) center)

/-- A hit is known by its number. -/
theorem eq_of_index_eq {cutoff : Option α} {center : Vec3 α} {a b : Hit α}
    (ha : a ∈ index.hitsAround cutoff center) (hb : b ∈ index.hitsAround cutoff center)
    (h : a.index = b.index) : a = b := by
  obtain ⟨p, hp, hpa⟩ := List.mem_filterMap.1 ha
  obtain ⟨q, hq, hqb⟩ := List.mem_filterMap.1 hb
  obtain ⟨-, rfl⟩ := hit?_eq_some_iff.1 hpa
  obtain ⟨-, rfl⟩ := hit?_eq_some_iff.1 hqb
  have hpoint := List.mem_zipIdx_iff_getElem?.1 hp
  dsimp only at h
  rw [h, List.mem_zipIdx_iff_getElem?.1 hq, Option.some.injEq] at hpoint
  rw [h, hpoint]

/-- Around none of its points are two equally far away. -/
def IsUntied (index : SpatialIndex α) (cutoff : Option α) : Prop :=
  ∀ center ∈ index.points, ∀ a ∈ index.hitsAround cutoff center,
    ∀ b ∈ index.hitsAround cutoff center,
      isCloser a b = true → isCloser b a = true → a.index = b.index

instance (index : SpatialIndex α) (cutoff : Option α) : Decidable (index.IsUntied cutoff) :=
  inferInstanceAs (Decidable (∀ center ∈ index.points, ∀ a ∈ index.hitsAround cutoff center,
    ∀ b ∈ index.hitsAround cutoff center,
      isCloser a b = true → isCloser b a = true → a.index = b.index))

theorem pairwise_byDistance (hits : List (Hit α)) :
    (byDistance hits).Pairwise fun a b => isCloser a b = true :=
  List.pairwise_mergeSort
    (fun a b c => Scalar.before_trans a.distance b.distance c.distance)
    (fun a b => Scalar.before_total a.distance b.distance) hits

theorem least_eq_of_perm {center : Vec3 α} {cutoff : Option α}
    (huntied : ∀ a ∈ index.hitsAround cutoff center, ∀ b ∈ index.hitsAround cutoff center,
      isCloser a b = true → isCloser b a = true → a.index = b.index)
    {order : List (Numbered α)} (horder : order.Perm index.points.zipIdx) (k : Nat) :
    least isCloser k (hit? index.norm (isBelow cutoff) center) order =
      least isCloser k (hit? index.norm (isBelow cutoff) center) index.points.zipIdx := by
  have hhits := horder.filterMap (hit? index.norm (isBelow cutoff) center)
  rw [least_eq_take_byDistance, least_eq_take_byDistance]
  congr 1
  refine List.Perm.eq_of_pairwise ?_ (pairwise_byDistance _) (pairwise_byDistance _)
    ((List.mergeSort_perm _ _).trans (hhits.trans (List.mergeSort_perm _ _).symm))
  intro a b ha hb hab hba
  have ha := hhits.mem_iff.1 ((List.mergeSort_perm _ _).mem_iff.1 ha)
  have hb := (List.mergeSort_perm _ _).mem_iff.1 hb
  exact eq_of_index_eq ha hb (huntied a ha b hb hab hba)

/-- **Without ties a query finds the closest points**, in whatever order a search comes across
them. -/
theorem query_eq_closest {cutoff : Option α} (huntied : index.IsUntied cutoff) (n : Nat) :
    index.query n cutoff = index.closest n cutoff := by
  unfold query
  cases htree : PointTree.ofPoints? index.points.zipIdx with
  | none => simp [closest, rowsIn, points_eq_nil_of_ofPoints? htree]
  | some tree =>
    refine List.map_congr_left fun p hp => ?_
    have hcenter : p.1 ∈ index.points := (List.mem_zipIdx' hp).2 ▸ List.getElem_mem _
    dsimp only
    rw [least_eq_of_perm (huntied p.1 hcenter) (foundFirst_perm _ _ _)]

end SpatialIndex

end Honeycomb
