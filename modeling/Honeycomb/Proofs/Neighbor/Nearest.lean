import Honeycomb.Proofs.Neighbor.Rows
import Honeycomb.Proofs.Number.Rank

/-!
# Closest neighbors

* `AreFirst` — some elements are the first ones of a list in an order, in which ties go either way.
  Lemmas for what neighbor searches do to such elements: to take fewer of them, to leave out the
  point itself, to apply the cutoff.
* `SpatialIndex.othersBelow` — all points below a cutoff around a point, without itself.
  `SpatialIndex.AreRows` — rows of at most `n` closest ones of these.
* `NearestSearch` — a search of a tree for the points closest to a place, of which only what it
  finds is known; `SpatialIndex.rowsBy` — the rows that such searches lead to.

Principal results: `SpatialIndex.areRows_query`, `SpatialIndex.areRows_closest` and
`SpatialIndex.areRows_rowsBy` — the rows are those of the closest points, whatever decides among
equally far ones.
-/

set_option autoImplicit false

namespace Honeycomb

/-! ## First elements -/

section

variable {β : Type} {le le' : β → β → Prop} {k n : Nat} {candidates candidates' chosen : List β}

/-- Some elements are the first `n` of a list, or all if there are fewer, and stand in order. -/
structure AreFirst (le : β → β → Prop) (n : Nat) (candidates chosen : List β) : Prop where
  sorted : chosen.Pairwise le
  length_eq : chosen.length = min n candidates.length
  rest : ∃ others, (chosen ++ others).Perm candidates ∧ ∀ a ∈ chosen, ∀ b ∈ others, le a b

theorem areFirst_take (h : candidates.Pairwise le) :
    AreFirst le n candidates (candidates.take n) where
  sorted := h.sublist (List.take_sublist n candidates)
  length_eq := List.length_take
  rest := by
    refine ⟨candidates.drop n, List.Perm.of_eq (List.take_append_drop n candidates), ?_⟩
    rw [← List.take_append_drop n candidates, List.pairwise_append] at h
    exact h.2.2

theorem areFirst_zero : AreFirst le 0 candidates [] :=
  ⟨.nil, by simp, candidates, .refl _, by simp⟩

namespace AreFirst

theorem subset (h : AreFirst le n candidates chosen) : ∀ a ∈ chosen, a ∈ candidates := by
  obtain ⟨others, hperm, -⟩ := h.rest
  exact fun a ha => hperm.mem_iff.1 (List.mem_append_left others ha)

theorem perm (h : AreFirst le n candidates chosen) (hperm : candidates.Perm candidates') :
    AreFirst le n candidates' chosen := by
  obtain ⟨others, hall, hrest⟩ := h.rest
  exact ⟨h.sorted, hperm.length_eq ▸ h.length_eq, others, hall.trans hperm, hrest⟩

theorem mono (h : AreFirst le n candidates chosen)
    (hle : ∀ a ∈ candidates, ∀ b ∈ candidates, le a b → le' a b) :
    AreFirst le' n candidates chosen := by
  obtain ⟨others, hall, hrest⟩ := h.rest
  refine ⟨?_, h.length_eq, others, hall, fun a ha b hb => ?_⟩
  · refine h.sorted.imp_of_mem fun ha hb => ?_
    exact hle _ (h.subset _ ha) _ (h.subset _ hb)
  · have hb' := hall.mem_iff.1 (List.mem_append_right chosen hb)
    exact hle a (h.subset a ha) b hb' (hrest a ha b hb)

/-- The first of the first are the first of all. -/
theorem take (h : AreFirst le k candidates chosen) (hn : n ≤ k) :
    AreFirst le n candidates (chosen.take n) := by
  obtain ⟨others, hall, hrest⟩ := h.rest
  refine ⟨h.sorted.sublist (List.take_sublist n chosen), ?_, chosen.drop n ++ others, ?_, ?_⟩
  · rw [List.length_take, h.length_eq]
    omega
  · rwa [← List.append_assoc, List.take_append_drop]
  · intro a ha b hb
    rcases List.mem_append.1 hb with hb | hb
    · have hsorted := h.sorted
      rw [← List.take_append_drop n chosen, List.pairwise_append] at hsorted
      exact hsorted.2.2 a ha b hb
    · exact hrest a (List.mem_of_mem_take ha) b hb

/-- A test that is passed by all that comes before something that passes it leaves the first ones
that pass it. -/
theorem filter {p : β → Bool} (h : AreFirst le n candidates chosen)
    (hp : ∀ a ∈ candidates, ∀ b ∈ candidates, le a b → p b = true → p a = true) :
    AreFirst le n (candidates.filter p) (chosen.filter p) := by
  obtain ⟨others, hall, hrest⟩ := h.rest
  have hfiltered : (chosen.filter p ++ others.filter p).Perm (candidates.filter p) := by
    rw [← List.filter_append]
    exact hall.filter p
  refine ⟨h.sorted.sublist List.filter_sublist, ?_, others.filter p, hfiltered, ?_⟩
  · have hlength := hall.length_eq
    have hlength' := hfiltered.length_eq
    have hfirst := h.length_eq
    rw [List.length_append] at hlength hlength'
    by_cases hpass : ∀ a ∈ chosen, p a = true
    · have hothers := List.length_filter_le p others
      rw [List.filter_eq_self.2 hpass] at hlength' ⊢
      omega
    · -- what comes after something that fails the test fails it as well
      have hnone : others.filter p = [] := by
        rw [List.filter_eq_nil_iff]
        intro b hb hpb
        refine hpass fun a ha => hp a (h.subset a ha) b ?_ (hrest a ha b hb) hpb
        exact hall.mem_iff.1 (List.mem_append_right chosen hb)
      have hchosen := List.length_filter_le p chosen
      rw [hnone, List.length_nil] at hlength'
      omega
  · intro a ha b hb
    exact hrest a (List.mem_of_mem_filter ha) b (List.mem_of_mem_filter hb)

/-- The first of some images are images of first ones. -/
theorem exists_of_map {γ : Type} {f : γ → β} {sources : List γ}
    (h : AreFirst le n (sources.map f) chosen) :
    ∃ first, AreFirst (fun x y => le (f x) (f y)) n sources first ∧ chosen = first.map f := by
  obtain ⟨others, hall, hrest⟩ := h.rest
  have hcomp : Relation.Comp (· = List.map f ·) List.Perm (chosen ++ others) sources := by
    rw [List.eq_map_comp_perm]
    exact hall
  obtain ⟨images, himages, hperm⟩ := hcomp
  obtain ⟨first, rest, rfl, rfl, rfl⟩ := List.map_eq_append_iff.1 himages.symm
  refine ⟨first, ⟨List.pairwise_map.1 h.sorted, ?_, rest, hperm, ?_⟩, rfl⟩
  · simpa using h.length_eq
  · exact fun x hx y hy => hrest _ (List.mem_map_of_mem hx) _ (List.mem_map_of_mem hy)

end AreFirst

end

/-! ## Leaving out the point itself -/

section

variable {α : Type} {le : Hit α → Hit α → Prop} {n i : Nat} {candidates near : List (Hit α)}

/-- To take out a hit that is there once leaves all others. -/
theorem eraseP_eq_filter (hnear : (near.map (·.index)).Nodup)
    (hself : near.any (·.index == i) = true) :
    near.eraseP (·.index == i) = near.filter (·.index != i) ∧
      (near.eraseP (·.index == i)).length + 1 = near.length := by
  obtain ⟨self, hmem, hself⟩ := List.any_eq_true.1 hself
  obtain ⟨first, before, after, hbefore, hfirst, rfl, herase⟩ :=
    List.exists_of_eraseP (p := fun hit : Hit α => hit.index == i) hmem hself
  rw [List.map_append, List.map_cons, List.nodup_append, List.nodup_cons] at hnear
  have hfirst : first.index = i := by simpa using hfirst
  have hafter : ∀ hit ∈ after, (hit.index != i) = true := by
    intro hit hhit
    rw [bne_iff_ne, ← hfirst]
    exact fun h => hnear.2.1.1 (h ▸ List.mem_map_of_mem hhit)
  have hbefore : ∀ hit ∈ before, (hit.index != i) = true := fun hit hhit => by
    simpa using hbefore hit hhit
  rw [herase, List.filter_append, List.filter_cons_of_neg (by simp [hfirst]),
    List.filter_eq_self.2 hbefore, List.filter_eq_self.2 hafter]
  refine ⟨rfl, ?_⟩
  simp only [List.length_append, List.length_cons]
  omega

/-- **Of the first `n + 1` hits, one that is found at the point itself is left out**; if there is
none, the last one is. In either way the first `n` other hits remain. -/
theorem AreFirst.neighborRow (h : AreFirst le (n + 1) candidates near)
    (hcandidates : (candidates.map (·.index)).Nodup) :
    AreFirst le n (candidates.filter (·.index != i)) (neighborRow n i near) := by
  obtain ⟨others, hall, hrest⟩ := h.rest
  have hlength := hall.length_eq
  have hfirst := h.length_eq
  have hfiltered := hall.filter (·.index != i)
  rw [← (hall.map _).nodup_iff, List.map_append, List.nodup_append] at hcandidates
  obtain ⟨hnear, -, hdistinct⟩ := hcandidates
  rw [List.length_append] at hlength
  rw [List.filter_append] at hfiltered
  have hlength' := hfiltered.length_eq
  rw [List.length_append] at hlength'
  unfold Honeycomb.neighborRow
  by_cases hself : near.any (·.index == i) = true
  · -- no second hit has the number, neither here nor among the others
    obtain ⟨herase, hone⟩ := eraseP_eq_filter hnear hself
    have hothers : others.filter (·.index != i) = others := by
      obtain ⟨self, hmem, hself⟩ := List.any_eq_true.1 hself
      refine List.filter_eq_self.2 fun hit hhit => ?_
      rw [bne_iff_ne]
      intro hi
      refine hdistinct self.index (List.mem_map_of_mem hmem) hit.index (List.mem_map_of_mem hhit) ?_
      rw [hi]
      simpa using hself
    rw [← herase, hothers] at hfiltered hlength'
    rw [if_pos hself]
    refine ⟨h.sorted.sublist List.eraseP_sublist, by omega, others, hfiltered, ?_⟩
    exact fun a ha => hrest a (List.mem_of_mem_eraseP ha)
  · -- the first `n + 1` hits are all others, so that `n` of them are enough
    have hall' : near.filter (·.index != i) = near := by
      refine List.filter_eq_self.2 fun hit hhit => ?_
      rw [bne_iff_ne]
      exact fun hi => hself (List.any_eq_true.2 ⟨hit, hhit, by simpa using hi⟩)
    have hfewer := List.length_filter_le (·.index != i) others
    rw [hall'] at hfiltered hlength'
    rw [if_neg hself]
    have hnew : AreFirst le (n + 1) (candidates.filter (·.index != i)) near :=
      ⟨h.sorted, by omega, _, hfiltered, fun a ha b hb => hrest a ha b (List.mem_of_mem_filter hb)⟩
    exact hnew.take (Nat.le_succ n)

end

/-! ## Hits -/

section

variable {α : Type} [Scalar α] {norm : Norm α} {points : List (Vec3 α)} {center : Vec3 α}
  {hit : Hit α}

/-- All points with their distances from a center. -/
def allHits (norm : Norm α) (points : List (Vec3 α)) (center : Vec3 α) : List (Hit α) :=
  points.zipIdx.map fun (p, j) => ⟨j, norm.distance center p⟩

/-- A hit has the number of a point and its distance. -/
theorem mem_allHits_iff : hit ∈ allHits norm points center ↔
    ∃ q, points[hit.index]? = some q ∧ hit.distance = norm.distance center q := by
  unfold allHits
  rw [List.mem_map]
  constructor
  · rintro ⟨⟨q, j⟩, hq, rfl⟩
    exact ⟨q, List.mem_zipIdx_iff_getElem?.1 hq, rfl⟩
  · rintro ⟨q, hq, hdistance⟩
    exact ⟨(q, hit.index), List.mem_zipIdx_iff_getElem?.2 hq, by dsimp only; rw [← hdistance]⟩

theorem exists_of_mem_allHits (h : hit ∈ allHits norm points center) :
    ∃ p ∈ points, hit.distance = norm.distance center p := by
  obtain ⟨p, hp, hdistance⟩ := mem_allHits_iff.1 h
  exact ⟨p, List.mem_of_getElem? hp, hdistance⟩

theorem nodup_index_allHits (norm : Norm α) (points : List (Vec3 α)) (center : Vec3 α) :
    ((allHits norm points center).map (·.index)).Nodup := by
  have hindex : (allHits norm points center).map (·.index) = points.zipIdx.map (·.2) := by
    rw [allHits, List.map_map]
    rfl
  rw [hindex, List.zipIdx_map_snd]
  exact List.nodup_range'

namespace SpatialIndex

variable {index : SpatialIndex α} {cutoff : Option α} {i : Nat}

theorem hitsAround_eq_filter : index.hitsAround cutoff center =
    (allHits index.norm index.points center).filter fun hit => isBelow cutoff hit.distance := by
  unfold hitsAround allHits
  rw [List.filter_map, ← List.filterMap_eq_map, List.filterMap_filter]
  exact List.filterMap_congr fun _ _ => rfl

/-- All points below a cutoff around a center, without the one with the number `i`. -/
def othersBelow (index : SpatialIndex α) (cutoff : Option α) (i : Nat) (center : Vec3 α) :
    List (Hit α) :=
  ((allHits index.norm index.points center).filter (·.index != i)).filter fun hit =>
    isBelow cutoff hit.distance

theorem isBelow_of_mem_othersBelow (h : hit ∈ index.othersBelow cutoff i center) :
    isBelow cutoff hit.distance = true :=
  (List.mem_filter.1 h).2

theorem othersBelow_eq_filter :
    index.othersBelow cutoff i center = (index.hitsAround cutoff center).filter (·.index != i) := by
  rw [othersBelow, hitsAround_eq_filter, List.filter_filter, List.filter_filter]
  exact List.filter_congr fun _ _ => Bool.and_comm ..

end SpatialIndex

end

/-! ## Numbers below a cutoff -/

section

variable {α : Type} [Scalar α] [SortedScalar α] {cutoff : Option α} {distance distance' : α}

theorem le_self_of_isBelow (h : isBelow cutoff distance = true) : distance ≤ distance := by
  cases cutoff with
  | none => exact SortedScalar.le_self_of_isFinite h
  | some c => exact SortedScalar.le_self_of_lt ((Scalar.isLess_iff _ _).1 h)

/-- What is at most as far as something below the cutoff is below it itself. -/
theorem isBelow_of_le (h : isBelow cutoff distance' = true) (hzero : 0 ≤ distance)
    (hle : distance ≤ distance') : isBelow cutoff distance = true := by
  cases cutoff with
  | none => exact SortedScalar.isFinite_of_le hzero hle h
  | some c =>
    have hlt := (Scalar.isLess_iff _ _).1 h
    exact (Scalar.isLess_iff _ _).2 (SortedScalar.lt_of_le_of_lt hle hlt)

end

/-! ## Rows of the closest points -/

namespace SpatialIndex

section

variable {α : Type} [Scalar α] {index : SpatialIndex α} {cutoff : Option α} {n i : Nat}
  {center : Vec3 α}

/-- There is one row for each point, of the at most `n` other points below a cutoff that are closest
to it, in ascending order. -/
structure AreRows (index : SpatialIndex α) (n : Nat) (cutoff : Option α)
    (rows : List (List (Hit α))) : Prop where
  length_eq : rows.length = index.size
  closest : ∀ (i : Nat) (row : List (Hit α)), rows[i]? = some row →
    ∃ center, index.points[i]? = some center ∧
      AreFirst (fun a b => a.distance ≤ b.distance) n (index.othersBelow cutoff i center) row

/-- Rows may be found one for each point. -/
theorem areRows_map {f : Numbered α → List (Hit α)}
    (hf : ∀ p ∈ index.points.zipIdx, AreFirst (fun a b => a.distance ≤ b.distance) n
      (index.othersBelow cutoff p.2 p.1) (f p)) :
    AreRows index n cutoff (index.points.zipIdx.map f) := by
  refine ⟨by simp [size], fun i row hrow => ?_⟩
  rw [List.getElem?_map, Option.map_eq_some_iff] at hrow
  obtain ⟨p, hp, rfl⟩ := hrow
  have hfirst := hf p (List.mem_of_getElem? hp)
  rw [List.getElem?_zipIdx, Option.map_eq_some_iff] at hp
  obtain ⟨center, hcenter, rfl⟩ := hp
  rw [Nat.zero_add] at hfirst ⊢
  exact ⟨center, hcenter, hfirst⟩

variable [SortedScalar α]

/-- **A row has the closest other points**, whatever order decides among equally far ones. -/
theorem areFirst_row {order : List (Numbered α)} (horder : order.Perm index.points.zipIdx) :
    AreFirst (fun a b => a.distance ≤ b.distance) n (index.othersBelow cutoff i center)
      (neighborRow n i
        (least isCloser (n + 1) (hit? index.norm (isBelow cutoff) center) order)) := by
  have hnear : AreFirst (fun a b => isCloser a b = true) (n + 1) (index.hitsAround cutoff center)
      (least isCloser (n + 1) (hit? index.norm (isBelow cutoff) center) order) := by
    rw [least_eq_take_byDistance]
    exact (areFirst_take (pairwise_byDistance _)).perm
      ((List.mergeSort_perm _ _).trans (horder.filterMap _))
  have hnodup : ((index.hitsAround cutoff center).map (·.index)).Nodup := by
    rw [hitsAround_eq_filter]
    exact (nodup_index_allHits ..).sublist (List.filter_sublist.map _)
  have hrow := hnear.neighborRow (i := i) hnodup
  rw [← othersBelow_eq_filter] at hrow
  refine hrow.mono fun a ha b hb hab => ?_
  exact SortedScalar.le_of_before (le_self_of_isBelow (isBelow_of_mem_othersBelow ha))
    (le_self_of_isBelow (isBelow_of_mem_othersBelow hb)) hab

/-- Rows are right whatever the order. -/
theorem areRows_rowsIn {order : Vec3 α → List (Numbered α) → List (Numbered α)}
    (horder : ∀ center, (order center index.points.zipIdx).Perm index.points.zipIdx) :
    AreRows index n cutoff (index.rowsIn order n cutoff) := by
  refine areRows_map fun ⟨center, i⟩ _ => ?_
  dsimp only
  split
  · rename_i hn
    rw [hn]
    exact areFirst_zero
  · exact areFirst_row (horder center)

/-- **The closest points make up the rows**, also when ties go by number. -/
theorem areRows_closest : AreRows index n cutoff (index.closest n cutoff) :=
  areRows_rowsIn fun _ => .refl _

/-- **A query finds the closest points.** -/
theorem areRows_query : AreRows index n cutoff (index.query n cutoff) := by
  unfold query
  cases htree : PointTree.ofPoints? index.points.zipIdx with
  | none =>
    have hnil := points_eq_nil_of_ofPoints? htree
    exact ⟨by simp [size, hnil], fun i row hrow => by cases hrow⟩
  | some tree => exact areRows_rowsIn fun _ => foundFirst_perm _ _ _

end

end SpatialIndex

/-! ## Searching a tree for the closest points -/

section

variable {α : Type} [Scalar α]

/-- A search of some points for so many as are asked for that are closest to a center in a norm. -/
abbrev NearestSearch (α : Type) := Norm α → List (Vec3 α) → Vec3 α → Nat → List (Hit α)

/-- What is known of the search of a tree of finite points: it finds the closest ones in ascending
order. Of equally far ones it may find any. -/
def NearestSearch.IsExact (search : NearestSearch α) : Prop :=
  ∀ (norm : Norm α) (points : List (Vec3 α)) (center : Vec3 α) (k : Nat),
    (∀ p ∈ points, p.isFinite) → center.isFinite → (∀ p ∈ points, 0 ≤ norm.distance center p) →
      AreFirst (fun a b => a.distance ≤ b.distance) k (allHits norm points center)
        (search norm points center k)

/-- All points put in order by distance. -/
def sortedSearch : NearestSearch α := fun norm points center k =>
  (SpatialIndex.byDistance (allHits norm points center)).take k

/-- For each point what a search for the closest points finds, without the point itself and with
the cutoff applied last. -/
def SpatialIndex.rowsBy (search : NearestSearch α) (index : SpatialIndex α) (n : Nat)
    (cutoff : Option α) : List (List (Hit α)) :=
  index.points.zipIdx.map fun (p, i) =>
    if n = 0 then []
    else (neighborRow n i (search index.norm index.points p (n + 1))).filter fun hit =>
      isBelow cutoff hit.distance

variable [SortedScalar α]

/-- The hits in any order, sorted by distance, have the closest ones in front. -/
theorem areFirst_byDistance {norm : Norm α} {points : List (Vec3 α)} {center : Vec3 α}
    {hits : List (Hit α)} (hhits : hits.Perm (allHits norm points center))
    (hdistance : ∀ p ∈ points, 0 ≤ norm.distance center p) (k : Nat) :
    AreFirst (fun a b => a.distance ≤ b.distance) k (allHits norm points center)
      ((SpatialIndex.byDistance hits).take k) := by
  have hself : ∀ hit ∈ allHits norm points center, hit.distance ≤ hit.distance := by
    intro hit hhit
    obtain ⟨p, hp, hdist⟩ := exists_of_mem_allHits hhit
    rw [hdist]
    exact SortedScalar.le_self_of_le (hdistance p hp)
  have hfirst := (areFirst_take (n := k) (SpatialIndex.pairwise_byDistance hits)).perm
    ((List.mergeSort_perm _ _).trans hhits)
  exact hfirst.mono fun a ha b hb => SortedScalar.le_of_before (hself a ha) (hself b hb)

theorem isExact_sortedSearch : (sortedSearch : NearestSearch α).IsExact :=
  fun _ _ _ k _ _ hdistance => areFirst_byDistance (.refl _) hdistance k

/-- **Searches for the closest points lead to right rows**, although they do not know the cutoff. -/
theorem SpatialIndex.areRows_rowsBy {index : SpatialIndex α} {cutoff : Option α} {n : Nat}
    {search : NearestSearch α} (hsearch : search.IsExact) (hfinite : ∀ p ∈ index.points, p.isFinite)
    (hdistance : ∀ p ∈ index.points, ∀ q ∈ index.points, 0 ≤ index.norm.distance p q) :
    AreRows index n cutoff (index.rowsBy search n cutoff) := by
  refine areRows_map fun ⟨p, i⟩ hp => ?_
  dsimp only
  split
  · rename_i hn
    rw [hn]
    exact areFirst_zero
  · have hmem : p ∈ index.points := (List.mem_zipIdx' hp).2 ▸ List.getElem_mem _
    have hnear := hsearch index.norm index.points p (n + 1) hfinite (hfinite p hmem)
      (hdistance p hmem)
    refine (hnear.neighborRow (nodup_index_allHits ..)).filter fun a ha b _ hle hb => ?_
    obtain ⟨q, hq, hfar⟩ := exists_of_mem_allHits (List.mem_of_mem_filter ha)
    exact isBelow_of_le hb (hfar ▸ hdistance p hmem q hq) hle

end

end Honeycomb
