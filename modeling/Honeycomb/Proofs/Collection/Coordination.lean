import Honeycomb.Proofs.Collection.Operation
import Honeycomb.Proofs.Neighbor.Nearest

/-!
# Coordination numbers and neighbor lists

* `Collection.slotsBelow` — all other atoms below a cutoff, found by comparing all distances.
* `Collection.counted` — the coordination numbers that these lead to. `Collection.IsNeighborList` —
  the neighbor list of an atom has the closest of them; `Collection.IsListed` — every atom has such
  a list, and nothing else has changed.
* `Collection.storeCoordination_eq`, `Collection.isListed_storeNeighbors` — what rows of the closest
  points are stored as.

Principal result: `Collection.neighbors_found_or_refused` — coordination numbers and neighbor lists
are those of all distances, or nothing changes.
-/

set_option autoImplicit false

namespace Honeycomb

namespace Collection

/-! ## All other atoms -/

section

variable {α : Type} [Scalar α]

/-- All other atoms than `a`, which has the number `i`, that are below a cutoff. They come with
their numbers. -/
def slotsBelow (c : Collection α) (cutoff : Option α) (i : Nat) (a : Atom α) :
    List (Atom α × Nat) :=
  c.atoms.zipIdx.filter fun (b, j) =>
    j != i && isBelow cutoff (c.params.norm.distance a.position b.position)

/-- The collection with the coordination numbers that all distances lead to. -/
def counted (c : Collection α) (n : Nat) (cutoff : Option α) : Collection α :=
  { c with
    atoms := c.atoms.mapIdx fun i a => a.withCoordination (min n (c.slotsBelow cutoff i a).length) }

/-- The reference from one atom to another one. -/
def refTo (c : Collection α) (a : Atom α) (slot : Atom α × Nat) : NeighborRef α :=
  ⟨slot.1.id, c.params.norm.distance a.position slot.1.position⟩

/-- A list of references is to the at most `n` other atoms below a cutoff that are closest, in
ascending order. -/
structure IsNeighborList (c : Collection α) (n : Nat) (cutoff : Option α) (i : Nat) (a : Atom α)
    (refs : List (NeighborRef α)) : Prop where
  length_eq : refs.length = min n (c.slotsBelow cutoff i a).length
  below : ∀ ref ∈ refs, isBelow cutoff ref.distance = true
  ascending : refs.Pairwise fun ref next => ref.distance ≤ next.distance
  slots : ∃ slots, refs = slots.map (c.refTo a) ∧
    AreFirst (fun s t => (c.refTo a s).distance ≤ (c.refTo a t).distance) n
      (c.slotsBelow cutoff i a) slots

/-- A collection differs from another one by new neighbor lists only, and these are right. -/
def IsListed (c : Collection α) (n : Nat) (cutoff : Option α) (listed : Collection α) : Prop :=
  ∃ lists : List (List (NeighborRef α)), lists.length = c.atoms.length ∧
    listed = { c with atoms := c.atoms.zipWith Atom.withNeighbors lists } ∧
    listed.neighborLists = lists ∧
    ∀ (i : Nat) (a : Atom α) (refs : List (NeighborRef α)), c.atoms[i]? = some a →
      lists[i]? = some refs → c.IsNeighborList n cutoff i a refs

theorem coordinationNumbers_counted (c : Collection α) (n : Nat) (cutoff : Option α) :
    (c.counted n cutoff).coordinationNumbers =
      c.atoms.mapIdx fun i a => min n (c.slotsBelow cutoff i a).length := by
  refine List.ext_getElem (by simp [coordinationNumbers, counted]) fun i _ _ => ?_
  simp only [coordinationNumbers, counted, List.getElem_map, List.getElem_mapIdx]
  rfl

end

/-! ## Storing rows -/

section

variable {α : Type} [Scalar α] {c : Collection α} {n : Nat} {cutoff : Option α}
  {rows : List (List (Hit α))} {i : Nat} {a : Atom α} {row : List (Hit α)}

/-- The index over the positions of all atoms. -/
def freshIndex (c : Collection α) : SpatialIndex α :=
  ⟨c.positions, c.params.norm, c.revision⟩

/-- The other points below a cutoff are the places of the other atoms below it. -/
theorem othersBelow_freshIndex (cutoff : Option α) (i : Nat) (a : Atom α) :
    c.freshIndex.othersBelow cutoff i a.position = (c.slotsBelow cutoff i a).map fun slot =>
      ⟨slot.2, (c.refTo a slot).distance⟩ := by
  unfold SpatialIndex.othersBelow allHits slotsBelow freshIndex positions
  rw [List.zipIdx_map, List.map_map, List.filter_filter, List.filter_map]
  congr 1
  exact List.filter_congr fun slot _ => Bool.and_comm ..

theorem length_rows (hrows : c.freshIndex.AreRows n cutoff rows) :
    rows.length = c.atoms.length := by
  rw [hrows.length_eq, SpatialIndex.size, freshIndex, positions, List.length_map]

/-- A row of the closest points belongs to the closest atoms. -/
theorem exists_slots_of_row (hrows : c.freshIndex.AreRows n cutoff rows)
    (ha : c.atoms[i]? = some a) (hrow : rows[i]? = some row) :
    ∃ slots, (row = slots.map fun slot => ⟨slot.2, (c.refTo a slot).distance⟩) ∧
      AreFirst (fun s t => (c.refTo a s).distance ≤ (c.refTo a t).distance) n
        (c.slotsBelow cutoff i a) slots := by
  obtain ⟨center, hcenter, hfirst⟩ := hrows.closest i row hrow
  have hposition : c.freshIndex.points[i]? = some a.position := by
    simp [freshIndex, positions, ha]
  obtain rfl := Option.some.inj (hposition.symm.trans hcenter)
  rw [othersBelow_freshIndex] at hfirst
  obtain ⟨slots, hslots, rfl⟩ := hfirst.exists_of_map
  exact ⟨slots, rfl, hslots⟩

theorem isBelow_of_mem_slotsBelow {slot : Atom α × Nat} (h : slot ∈ c.slotsBelow cutoff i a) :
    isBelow cutoff (c.refTo a slot).distance = true :=
  (Bool.and_eq_true_iff.1 (List.mem_filter.1 h).2).2

/-- The cutoff was applied before: it leaves out nothing more. -/
theorem isBelow_of_mem_row (hrows : c.freshIndex.AreRows n cutoff rows)
    (ha : c.atoms[i]? = some a) (hrow : rows[i]? = some row) :
    ∀ hit ∈ row, isBelow cutoff hit.distance = true := by
  obtain ⟨slots, rfl, hslots⟩ := exists_slots_of_row hrows ha hrow
  intro hit hhit
  obtain ⟨slot, hslot, rfl⟩ := List.mem_map.1 hhit
  exact isBelow_of_mem_slotsBelow (hslots.subset slot hslot)

/-- **Rows of the closest points count the atoms** as all distances do. -/
theorem storeCoordination_eq (hrows : c.freshIndex.AreRows n cutoff rows) :
    c.storeCoordination rows cutoff = c.counted n cutoff := by
  have hlength := length_rows hrows
  unfold storeCoordination counted
  congr 1
  refine List.ext_getElem (by simp [hlength]) fun i hi hi' => ?_
  rw [List.length_mapIdx] at hi'
  have ha : c.atoms[i]? = some c.atoms[i] := List.getElem?_eq_getElem hi'
  have hrow : rows[i]? = some rows[i] := List.getElem?_eq_getElem (hlength ▸ hi')
  have hcount : countBelow cutoff rows[i] = min n (c.slotsBelow cutoff i c.atoms[i]).length := by
    unfold countBelow
    rw [List.countP_eq_length.2 (isBelow_of_mem_row hrows ha hrow)]
    obtain ⟨slots, hslots, hfirst⟩ := exists_slots_of_row hrows ha hrow
    rw [hslots, List.length_map, hfirst.length_eq]
  rw [List.getElem_zipWith, List.getElem_mapIdx, hcount]

/-- The references of a row are those to its atoms. -/
theorem refsOf_map {slots : List (Atom α × Nat)} (hslots : ∀ slot ∈ slots, slot ∈ c.atoms.zipIdx) :
    refsOf c.ids.toArray (slots.map fun slot => ⟨slot.2, (c.refTo a slot).distance⟩) =
      slots.map (c.refTo a) := by
  unfold refsOf
  rw [List.filterMap_map, ← List.filterMap_eq_map]
  refine List.filterMap_congr fun slot hslot => ?_
  have hatom : c.atoms[slot.2]? = some slot.1 := List.mem_zipIdx_iff_getElem?.1 (hslots slot hslot)
  simp [ids, hatom, refTo]

/-- **Rows of the closest points are listed** as references to the closest atoms. -/
theorem isListed_storeNeighbors (hrows : c.freshIndex.AreRows n cutoff rows) :
    c.IsListed n cutoff (c.storeNeighbors rows cutoff) := by
  have hlength := length_rows hrows
  have hstored : c.storeNeighbors rows cutoff = { c with
      atoms := c.atoms.zipWith Atom.withNeighbors (rows.map fun row =>
        refsOf c.ids.toArray (row.filter fun hit => isBelow cutoff hit.distance)) } := by
    unfold storeNeighbors
    rw [List.zipWith_map_right]
  refine ⟨_, by rw [List.length_map, hlength], hstored, ?_, fun i a refs ha hrefs => ?_⟩
  · rw [hstored]
    exact map_zipWith_eq_marks (fun _ _ => rfl) (by rw [List.length_map, hlength])
  · rw [List.getElem?_map, Option.map_eq_some_iff] at hrefs
    obtain ⟨row, hrow, rfl⟩ := hrefs
    rw [List.filter_eq_self.2 (isBelow_of_mem_row hrows ha hrow)]
    obtain ⟨slots, rfl, hslots⟩ := exists_slots_of_row hrows ha hrow
    rw [refsOf_map fun slot hslot => List.mem_of_mem_filter (hslots.subset slot hslot)]
    refine ⟨by rw [List.length_map, hslots.length_eq], fun ref href => ?_,
      List.pairwise_map.2 hslots.sorted, slots, rfl, hslots⟩
    obtain ⟨slot, hslot, rfl⟩ := List.mem_map.1 href
    exact isBelow_of_mem_slotsBelow (hslots.subset slot hslot)

end

/-! ## Finding and failing -/

section

variable {α : Type} [Scalar α] {c : Collection α} {n : Nat} {cutoff : Option α}

/-- An index over no points has no rows. -/
theorem areRows_nil (h : c.atoms = []) : c.freshIndex.AreRows n cutoff [] := by
  refine ⟨?_, fun i row hrow => by cases hrow⟩
  simp [SpatialIndex.size, freshIndex, positions, h]

/-- Finite positions are indexed. -/
theorem index?_of_finite (hfinite : ∀ a ∈ c.atoms, a.position.isFinite) :
    (c.atoms = [] ∧ c.index? = .ok none) ∨ c.index? = .ok (some c.freshIndex) := by
  by_cases hnil : c.positions = []
  · exact .inl ⟨List.map_eq_nil_iff.1 hnil, SpatialIndex.ofPoints?_eq_none_iff.2 hnil⟩
  · exact .inr (SpatialIndex.ofPoints?_eq_some_iff.2 ⟨List.forall_mem_map.2 hfinite, hnil, rfl⟩)

/-- Another position is refused. -/
theorem index?_eq_error {i : Nat} (h : c.positions.findIdx? (!·.isFinite) = some i) :
    c.index? = .error (.nonFiniteAtom i) := by
  unfold index? SpatialIndex.ofPoints?
  rw [h]

theorem find_eq_error (n : Nat) (cutoff : Option α) {i : Nat}
    (h : c.positions.findIdx? (!·.isFinite) = some i) :
    c.findCoordination n cutoff = .error (.nonFiniteAtom i) ∧
      c.findNeighbors n cutoff = .error (.nonFiniteAtom i) := by
  unfold findCoordination findNeighbors queryRows
  rw [index?_eq_error h]
  exact ⟨rfl, rfl⟩

variable [SortedScalar α]

theorem findCoordination_eq (hfinite : ∀ a ∈ c.atoms, a.position.isFinite) :
    c.findCoordination n cutoff = .ok (c.counted n cutoff) := by
  unfold findCoordination
  rcases index?_of_finite hfinite with ⟨hnil, hindex⟩ | hindex
  · rw [hindex, ← storeCoordination_eq (areRows_nil hnil)]
    rfl
  · rw [hindex, ← storeCoordination_eq SpatialIndex.areRows_closest]
    rfl

theorem exists_isListed (n : Nat) (cutoff : Option α)
    (hfinite : ∀ a ∈ c.atoms, a.position.isFinite) :
    ∃ listed, c.findNeighbors n cutoff = .ok listed ∧ c.IsListed n cutoff listed := by
  unfold findNeighbors queryRows
  rcases index?_of_finite hfinite with ⟨hnil, hindex⟩ | hindex
  · rw [hindex]
    exact ⟨_, rfl, isListed_storeNeighbors (areRows_nil hnil)⟩
  · rw [hindex]
    exact ⟨_, rfl, isListed_storeNeighbors SpatialIndex.areRows_query⟩

end

end Collection

end Honeycomb
