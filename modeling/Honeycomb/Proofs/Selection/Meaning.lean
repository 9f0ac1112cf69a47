import Mathlib
import Honeycomb.Proofs.Neighbor.Rows
import Honeycomb.Proofs.Number.Order
import Honeycomb.Selection.Evaluation

/-!
# The meaning of selections

* `IsExtension` — a set of ids is that of the atoms with a property.
* `evalWith_within`, `evalWith_not_eq_ok` and the like — a predicate evaluates as its parts do.
* `Predicate.Holds` — what a predicate says of one atom; `isExtension_evalWith` — the evaluator
  gives the extension of a predicate if it is given a way to find the atoms around others.
* `isFinder_neighborhood` — comparing all distances is such a way.
* `RadiusSearch` — a search of a tree of points, of which only what it finds is known;
  `isFinder_neighborhoodBy` — the atoms that a slightly widened search finds around each center
  and that pass the exact test are those around the centers.

Principal result: `evaluate_iff_holds` — a selection evaluates to the ids of the atoms of which
it is true, and selects these atoms.
-/

set_option autoImplicit false

namespace Honeycomb.Selection

/-! ## Sets of ids -/

section

variable {α : Type} {c : Collection α} {q r : Atom α → Prop} {ids ids' : IdSet}

/-- A set of ids is that of the atoms with a property. -/
def IsExtension (c : Collection α) (ids : IdSet) (q : Atom α → Prop) : Prop :=
  ∀ i, i ∈ ids ↔ ∃ a ∈ c.atoms, a.id = i ∧ q a

theorem eq_of_id_eq (hids : c.ids.Nodup) {a b : Atom α} (ha : a ∈ c.atoms) (hb : b ∈ c.atoms)
    (h : a.id = b.id) : a = b :=
  List.inj_on_of_nodup_map hids ha hb h

/-- An id in an extension stands for an atom with the property. -/
theorem IsExtension.mem_iff (h : IsExtension c ids q) (hids : c.ids.Nodup) {b : Atom α}
    (hb : b ∈ c.atoms) : b.id ∈ ids ↔ q b := by
  rw [h b.id]
  constructor
  · rintro ⟨a, ha, hid, hq⟩
    rwa [← eq_of_id_eq hids ha hb hid]
  · intro hq
    exact ⟨b, hb, rfl, hq⟩

/-- A set of ids of atoms is an extension if it has the right ids of them. -/
theorem isExtension_of_mem_iff (hsub : ∀ i ∈ ids, ∃ a ∈ c.atoms, a.id = i)
    (h : ∀ b ∈ c.atoms, b.id ∈ ids ↔ q b) : IsExtension c ids q := by
  intro i
  constructor
  · intro hi
    obtain ⟨a, ha, rfl⟩ := hsub i hi
    exact ⟨a, ha, rfl, (h a ha).1 hi⟩
  · rintro ⟨a, ha, rfl, hq⟩
    exact (h a ha).2 hq

theorem isExtension_allIds : IsExtension c (allIds c) fun _ => True := by
  intro i
  simp [allIds, Collection.ids]

theorem isExtension_idsWhere {p : Atom α → Bool} (h : ∀ a, p a = true ↔ q a) :
    IsExtension c (idsWhere c p) q := by
  intro i
  simp only [idsWhere, Std.TreeSet.mem_ofList, List.contains_iff_mem, List.mem_map,
    List.mem_filter, h]
  constructor
  · rintro ⟨a, ⟨ha, hq⟩, hid⟩
    exact ⟨a, ha, hid, hq⟩
  · rintro ⟨a, ha, hid, hq⟩
    exact ⟨a, ⟨ha, hq⟩, hid⟩

theorem IsExtension.diff (h : IsExtension c ids q) (h' : IsExtension c ids' r)
    (hids : c.ids.Nodup) : IsExtension c (ids \ ids') fun a => q a ∧ ¬r a := by
  refine isExtension_of_mem_iff (fun i hi => ?_) fun b hb => ?_
  · obtain ⟨a, ha, hid, -⟩ := (h i).1 (Std.TreeSet.mem_diff_iff.1 hi).1
    exact ⟨a, ha, hid⟩
  · rw [Std.TreeSet.mem_diff_iff, h.mem_iff hids hb, h'.mem_iff hids hb]

theorem IsExtension.inter (h : IsExtension c ids q) (h' : IsExtension c ids' r)
    (hids : c.ids.Nodup) : IsExtension c (ids ∩ ids') fun a => q a ∧ r a := by
  refine isExtension_of_mem_iff (fun i hi => ?_) fun b hb => ?_
  · obtain ⟨a, ha, hid, -⟩ := (h i).1 (Std.TreeSet.mem_inter_iff.1 hi).1
    exact ⟨a, ha, hid⟩
  · rw [Std.TreeSet.mem_inter_iff, h.mem_iff hids hb, h'.mem_iff hids hb]

theorem IsExtension.union (h : IsExtension c ids q) (h' : IsExtension c ids' r) :
    IsExtension c (ids ∪ ids') fun a => q a ∨ r a := by
  intro i
  rw [Std.TreeSet.mem_union_iff, h i, h' i]
  constructor
  · rintro (⟨a, ha, hid, hq⟩ | ⟨a, ha, hid, hr⟩)
    · exact ⟨a, ha, hid, .inl hq⟩
    · exact ⟨a, ha, hid, .inr hr⟩
  · rintro ⟨a, ha, hid, hq | hr⟩
    · exact .inl ⟨a, ha, hid, hq⟩
    · exact .inr ⟨a, ha, hid, hr⟩

/-- The centers are the atoms with the property. -/
theorem mem_filter_contains (hids : c.ids.Nodup) (h : IsExtension c ids q) {a : Atom α} :
    a ∈ c.atoms.filter (fun a => ids.contains a.id) ↔ a ∈ c.atoms ∧ q a := by
  rw [List.mem_filter, Std.TreeSet.contains_iff_mem]
  exact and_congr_right fun ha => h.mem_iff hids ha

/-- A set with the ids of some more atoms that pass a test of their position. -/
theorem mem_insertMany_iff {test : Vec3 α → Bool} {i : Nat} :
    i ∈ ids.insertMany (((c.atoms.zip c.positions).filter fun (a, p) =>
        !ids.contains a.id && test p).map (·.1.id)) ↔
      i ∈ ids ∨ ∃ a ∈ c.atoms, a.id = i ∧ test a.position = true := by
  have hzip : c.atoms.zip c.positions = c.atoms.map fun a => (a, a.position) := by
    rw [Collection.positions, ← List.zip_map', List.map_id']
  rw [Std.TreeSet.mem_insertMany_list, hzip, List.contains_iff_mem]
  refine or_congr_right' fun hi => ?_
  simp only [List.mem_map, List.mem_filter, Bool.and_eq_true, Bool.not_eq_true']
  constructor
  · rintro ⟨_, ⟨⟨a, ha, rfl⟩, -, htest⟩, hid⟩
    exact ⟨a, ha, hid, htest⟩
  · rintro ⟨a, ha, rfl, htest⟩
    refine ⟨_, ⟨⟨a, ha, rfl⟩, ?_, htest⟩, rfl⟩
    rwa [← Bool.not_eq_true, Std.TreeSet.contains_iff_mem]

/-- A supplied index of the revision of a collection is over its positions. -/
def IsFaithful (c : Collection α) (supplied : Option (SpatialIndex α)) : Prop :=
  ∀ index ∈ supplied, index.revision = c.revision → index.points = c.positions

theorem isFaithful_none : IsFaithful c none :=
  fun _ h => by cases h

end

variable {α : Type} [Scalar α]

/-! ## Meaning -/

/-- An atom has a property, or is within a radius of an atom that has it. -/
def IsNear (c : Collection α) (q : Atom α → Prop) (radius : α) (b : Atom α) : Prop :=
  q b ∨ ∃ a ∈ c.atoms, q a ∧ Norm.euclidean.distance a.position b.position ≤ radius

/-- **What a predicate says of an atom** of a collection. -/
def Predicate.Holds (c : Collection α) : Predicate α → Atom α → Prop
  | all, _ => True
  | nothing, _ => False
  | id ids, b => b.id ∈ ids
  | molecule ids, b => b.molecule ∈ ids
  | type types, b => b.type ∈ types
  | element symbols, b => b.element ∈ symbols
  | compare axis comparison value, b => comparison.holds (b.position.along axis) value = true
  | inside region, b => region.contains b.position = true
  | within radius inner, b => IsNear c (inner.Holds c) radius b
  | exwithin radius inner, b => IsNear c (inner.Holds c) radius b ∧ ¬inner.Holds c b
  | not inner, b => ¬inner.Holds c b
  | and left right, b => left.Holds c b ∧ right.Holds c b
  | or left right, b => left.Holds c b ∨ right.Holds c b

instance decidableIsNear (c : Collection α) (q : Atom α → Prop) [DecidablePred q] (radius : α) :
    DecidablePred (IsNear c q radius) :=
  fun _ => inferInstanceAs (Decidable (_ ∨ _))

instance Predicate.decidableHolds (c : Collection α) :
    (p : Predicate α) → DecidablePred (p.Holds c)
  | all => fun _ => .isTrue trivial
  | nothing => fun _ => .isFalse not_false
  | id _ => fun _ => inferInstanceAs (Decidable (_ ∈ _))
  | molecule _ => fun _ => inferInstanceAs (Decidable (_ ∈ _))
  | type _ => fun _ => inferInstanceAs (Decidable (_ ∈ _))
  | element _ => fun _ => inferInstanceAs (Decidable (_ ∈ _))
  | compare _ _ _ => fun _ => inferInstanceAs (Decidable (_ = true))
  | inside _ => fun _ => inferInstanceAs (Decidable (_ = true))
  | within radius inner =>
    have := decidableHolds c inner
    inferInstanceAs (DecidablePred (IsNear c (inner.Holds c) radius))
  | exwithin radius inner => fun b =>
    have := decidableHolds c inner
    inferInstanceAs (Decidable (IsNear c (inner.Holds c) radius b ∧ ¬inner.Holds c b))
  | not inner => fun b =>
    have := decidableHolds c inner b
    inferInstanceAs (Decidable (¬_))
  | and left right => fun b =>
    have := decidableHolds c left b
    have := decidableHolds c right b
    inferInstanceAs (Decidable (_ ∧ _))
  | or left right => fun b =>
    have := decidableHolds c left b
    have := decidableHolds c right b
    inferInstanceAs (Decidable (_ ∨ _))

/-- All radii in a predicate. -/
def Predicate.radii : Predicate α → List α
  | within radius inner => radius :: inner.radii
  | exwithin radius inner => radius :: inner.radii
  | not inner => inner.radii
  | and left right => left.radii ++ right.radii
  | or left right => left.radii ++ right.radii
  | _ => []

/-! ## The evaluator -/

section

variable {c : Collection α} {addAround : α → IdSet → Except (Error α) IdSet} {radius : α}
  {inner left right : Predicate α} {ids centers found l r : IdSet}

theorem evalWith_within (h : inner.evalWith c addAround = .ok centers) :
    (Predicate.within radius inner).evalWith c addAround = addAround radius centers := by
  rw [Predicate.evalWith, h]
  rfl

theorem evalWith_exwithin_eq_ok (h : inner.evalWith c addAround = .ok centers)
    (hfound : addAround radius centers = .ok found) :
    (Predicate.exwithin radius inner).evalWith c addAround = .ok (found \ centers) := by
  rw [Predicate.evalWith, h]
  change (do return (← addAround radius centers) \ centers) = _
  rw [hfound]
  rfl

theorem evalWith_not_eq_ok (h : inner.evalWith c addAround = .ok ids) :
    (Predicate.not inner).evalWith c addAround = .ok (allIds c \ ids) := by
  rw [Predicate.evalWith, h]
  rfl

theorem evalWith_and_eq_ok (hl : left.evalWith c addAround = .ok l)
    (hr : right.evalWith c addAround = .ok r) :
    (Predicate.and left right).evalWith c addAround = .ok (l ∩ r) := by
  rw [Predicate.evalWith, hl, hr]
  rfl

theorem evalWith_or_eq_ok (hl : left.evalWith c addAround = .ok l)
    (hr : right.evalWith c addAround = .ok r) :
    (Predicate.or left right).evalWith c addAround = .ok (l ∪ r) := by
  rw [Predicate.evalWith, hl, hr]
  rfl

end

/-- A way to add the atoms around a set gives what it should: the set of the atoms near to it. -/
def IsFinder (c : Collection α) (addAround : α → IdSet → Except (Error α) IdSet) (radius : α) :
    Prop :=
  ∀ {centers : IdSet} {q : Atom α → Prop}, IsExtension c centers q →
    ∃ found, addAround radius centers = .ok found ∧ IsExtension c found (IsNear c q radius)

/-- **The evaluator gives the extension of a predicate.** -/
theorem isExtension_evalWith {c : Collection α} (hids : c.ids.Nodup)
    {addAround : α → IdSet → Except (Error α) IdSet} :
    ∀ p : Predicate α, (∀ radius ∈ p.radii, IsFinder c addAround radius) →
      ∃ ids, p.evalWith c addAround = .ok ids ∧ IsExtension c ids (p.Holds c)
  | .all, _ => ⟨_, rfl, isExtension_allIds⟩
  | .nothing, _ => ⟨_, rfl, by simp [IsExtension, Predicate.Holds]⟩
  | .id _, _ => ⟨_, rfl, isExtension_idsWhere fun a => by simp [Predicate.Holds]⟩
  | .molecule _, _ => ⟨_, rfl, isExtension_idsWhere fun a => by simp [Predicate.Holds]⟩
  | .type _, _ => ⟨_, rfl, isExtension_idsWhere fun a => by simp [Predicate.Holds]⟩
  | .element _, _ => ⟨_, rfl, isExtension_idsWhere fun a => by simp [Predicate.Holds]⟩
  | .compare _ _ _, _ => ⟨_, rfl, isExtension_idsWhere fun a => Iff.rfl⟩
  | .inside _, _ => ⟨_, rfl, isExtension_idsWhere fun a => Iff.rfl⟩
  | .within radius inner, hfinder => by
    obtain ⟨hradius, hinner⟩ := List.forall_mem_cons.1 hfinder
    obtain ⟨centers, hok, hcenters⟩ := isExtension_evalWith hids inner hinner
    obtain ⟨found, hfound, hnear⟩ := hradius hcenters
    exact ⟨found, (evalWith_within hok).trans hfound, hnear⟩
  | .exwithin radius inner, hfinder => by
    obtain ⟨hradius, hinner⟩ := List.forall_mem_cons.1 hfinder
    obtain ⟨centers, hok, hcenters⟩ := isExtension_evalWith hids inner hinner
    obtain ⟨found, hfound, hnear⟩ := hradius hcenters
    exact ⟨found \ centers, evalWith_exwithin_eq_ok hok hfound, hnear.diff hcenters hids⟩
  | .not inner, hfinder => by
    obtain ⟨ids, hok, hext⟩ := isExtension_evalWith hids inner hfinder
    refine ⟨allIds c \ ids, evalWith_not_eq_ok hok, ?_⟩
    simpa [Predicate.Holds] using isExtension_allIds.diff hext hids
  | .and left right, hfinder => by
    obtain ⟨hleft, hright⟩ := List.forall_mem_append.1 hfinder
    obtain ⟨l, hl, hlext⟩ := isExtension_evalWith hids left hleft
    obtain ⟨r, hr, hrext⟩ := isExtension_evalWith hids right hright
    exact ⟨l ∩ r, evalWith_and_eq_ok hl hr, hlext.inter hrext hids⟩
  | .or left right, hfinder => by
    obtain ⟨hleft, hright⟩ := List.forall_mem_append.1 hfinder
    obtain ⟨l, hl, hlext⟩ := isExtension_evalWith hids left hleft
    obtain ⟨r, hr, hrext⟩ := isExtension_evalWith hids right hright
    exact ⟨l ∪ r, evalWith_or_eq_ok hl hr, hlext.union hrext⟩

/-! ## Comparing all distances -/

section

variable {c : Collection α} {supplied : Option (SpatialIndex α)} {radius : α}

theorem isFaithful_of_index? (h : c.index? = .ok supplied) : IsFaithful c supplied := by
  cases supplied with
  | none => exact isFaithful_none
  | some built =>
    obtain ⟨-, -, rfl⟩ := SpatialIndex.ofPoints?_eq_some_iff.1 h
    rintro index hindex -
    cases hindex
    rfl

omit [Scalar α] in
theorem isEuclidean_iff {norm : Norm α} : norm.isEuclidean = true ↔ norm = .euclidean := by
  cases norm <;> simp [Norm.isEuclidean]

omit [Scalar α] in
/-- An index is used if it has the revision and the size of the collection and measures Euclidean
distances. -/
theorem usableIndex?_eq_some_iff {index : SpatialIndex α} :
    usableIndex? c supplied = some index ↔
      supplied = some index ∧ index.isStale c = false ∧ index.norm = .euclidean := by
  unfold usableIndex?
  rw [Option.filter_eq_some_iff, Bool.and_eq_true, Bool.not_eq_true', isEuclidean_iff]

/-- The index of a distance search is over the positions; there is none if there are no atoms. -/
theorem distanceIndex?_spec (hfinite : ∀ a ∈ c.atoms, a.position.isFinite)
    (hsupplied : IsFaithful c supplied) :
    (c.atoms = [] ∧ distanceIndex? c supplied = .ok none) ∨
      ∃ index, distanceIndex? c supplied = .ok (some index) ∧ index.points = c.positions ∧
        index.norm = .euclidean := by
  unfold distanceIndex?
  cases husable : usableIndex? c supplied with
  | some index =>
    obtain ⟨hmem, hcurrent, hnorm⟩ := usableIndex?_eq_some_iff.1 husable
    have hrevision := SpatialIndex.revision_eq_of_not_isStale hcurrent
    exact .inr ⟨index, rfl, hsupplied index hmem hrevision, hnorm⟩
  | none =>
    have hall : ∀ p ∈ c.positions, p.isFinite = true := by
      intro p hp
      obtain ⟨a, ha, rfl⟩ := List.mem_map.1 hp
      exact hfinite a ha
    by_cases hempty : c.positions = []
    · exact .inl ⟨List.map_eq_nil_iff.1 hempty, SpatialIndex.ofPoints?_eq_none_iff.2 hempty⟩
    · exact .inr ⟨_, SpatialIndex.ofPoints?_eq_some_iff.2 ⟨hall, hempty, rfl⟩, rfl, rfl⟩

/-- Nothing is near where there is nothing. -/
theorem isExtension_of_atoms_eq_nil {centers : IdSet} {q : Atom α → Prop} (h : c.atoms = [])
    (hcenters : IsExtension c centers q) : IsExtension c centers (IsNear c q radius) := by
  intro i
  rw [hcenters i]
  simp [h]

/-- **Comparing all distances finds the atoms around a set.** -/
theorem isFinder_neighborhood (hids : c.ids.Nodup)
    (hfinite : ∀ a ∈ c.atoms, a.position.isFinite) (hsupplied : IsFaithful c supplied)
    (hradius : ¬radius < 0) : IsFinder c (neighborhood c supplied) radius := by
  intro centers q hcenters
  rcases distanceIndex?_spec hfinite hsupplied with ⟨hnil, hnone⟩ | ⟨index, hindex, hpoints, hnorm⟩
  · unfold neighborhood
    rw [hnone]
    exact ⟨centers, rfl, isExtension_of_atoms_eq_nil hnil hcenters⟩
  · have hreach : index.reach ((c.atoms.filter fun a => centers.contains a.id).map (·.position))
        radius = .ok (SpatialIndex.isAround .euclidean
          ((c.atoms.filter fun a => centers.contains a.id).map (·.position)) radius) := by
      unfold SpatialIndex.reach
      rw [if_neg hradius, if_pos, hnorm]
      rw [List.all_map, List.all_eq_true]
      intro a ha
      exact hfinite a (List.mem_filter.1 ha).1
    have hfound : neighborhood c supplied radius centers = .ok (centers.insertMany
        (((c.atoms.zip c.positions).filter fun (a, p) => !centers.contains a.id &&
          SpatialIndex.isAround .euclidean
            ((c.atoms.filter fun a => centers.contains a.id).map (·.position)) radius p).map
              (·.1.id))) := by
      unfold neighborhood
      rw [hindex]
      change (do
        let isReached ← index.reach _ radius
        return _) = Except.ok _
      rw [hreach, ← hpoints]
      rfl
    refine ⟨_, hfound, fun i => ?_⟩
    rw [mem_insertMany_iff, hcenters i, ← exists_or]
    refine exists_congr fun b => ?_
    rw [← and_or_left, ← and_or_left, SpatialIndex.isAround_iff]
    refine and_congr_right fun _ => and_congr_right fun _ => or_congr_right ?_
    simp only [List.mem_map, mem_filter_contains hids hcenters]
    constructor
    · rintro ⟨_, ⟨a, ⟨ha, hq⟩, rfl⟩, hle⟩
      exact ⟨a, ha, hq, hle⟩
    · rintro ⟨a, ha, hq, hle⟩
      exact ⟨_, ⟨a, ⟨ha, hq⟩, rfl⟩, hle⟩

/-! ## Searching a tree of points -/

/-- A search of some points for those within a radius of a center. It gives distances and the
numbers of points. -/
abbrev RadiusSearch (α : Type) := List (Vec3 α) → Vec3 α → α → List (α × Nat)

/-- What is known of the search of a tree of finite points: it finds exactly the points whose
distance is at most the radius. -/
def RadiusSearch.IsExact (search : RadiusSearch α) : Prop :=
  ∀ (points : List (Vec3 α)) (center : Vec3 α) (radius distance : α) (j : Nat),
    (∀ p ∈ points, p.isFinite) → center.isFinite →
      ((distance, j) ∈ search points center radius ↔
        ∃ p, points[j]? = some p ∧ distance = Norm.euclidean.distance center p ∧
          distance ≤ radius)

/-- All points one after the other, each compared with the radius. -/
def scanSearch : RadiusSearch α := fun points center radius =>
  (points.zipIdx.map fun (p, j) => (Norm.euclidean.distance center p, j)).filter (·.1 ≤ radius)

theorem isExact_scanSearch : (scanSearch : RadiusSearch α).IsExact := by
  intro points center radius distance j _ _
  simp only [scanSearch, List.mem_filter, List.mem_map, Prod.exists, Prod.mk.injEq,
    List.mem_zipIdx_iff_getElem?, decide_eq_true_iff]
  constructor
  · rintro ⟨⟨p, j, hp, rfl, rfl⟩, hle⟩
    exact ⟨p, hp, rfl, hle⟩
  · rintro ⟨p, hp, rfl, hle⟩
    exact ⟨⟨p, j, hp, rfl, rfl⟩, hle⟩

/-- The points at most some radius away from a center: those of a slightly wider search that pass
the exact test. -/
def withinBy (search : RadiusSearch α) (index : SpatialIndex α) (center : Vec3 α) (radius : α) :
    Except (Error α) (List (α × Nat)) :=
  if radius < 0 then .ok []
  else if center.isFinite then
    .ok ((search index.points center (SpatialIndex.widened radius)).filter (·.1 ≤ radius))
  else .error .nonFiniteCenter

/-- A set with the ids of the atoms that a search around one center finds. -/
def addWithin (search : RadiusSearch α) (c : Collection α) (index : SpatialIndex α) (radius : α)
    (found : IdSet) (center : Atom α) : Except (Error α) IdSet := do
  let hits ← withinBy search index center.position radius
  return found.insertMany (hits.filterMap fun hit => (c.atoms[hit.2]?).map (·.id))

/-- The atoms that stand in a set, and all atoms that searches around them find, one center after
the other. -/
def neighborhoodBy (search : RadiusSearch α) (c : Collection α)
    (supplied : Option (SpatialIndex α)) (radius : α) (centers : IdSet) :
    Except (Error α) IdSet := do
  match ← distanceIndex? c supplied with
  | none => return centers
  | some index =>
    (c.atoms.filter fun a => centers.contains a.id).foldlM (addWithin search c index radius) centers

variable {search : RadiusSearch α} [OrderedScalar α]

/-- The exact test leaves of a wider search what a search with the radius itself would find. -/
theorem withinBy_spec (hsearch : search.IsExact) {index : SpatialIndex α}
    (hpoints : ∀ p ∈ index.points, p.isFinite) {center : Vec3 α} (hcenter : center.isFinite)
    (hradius : ¬radius < 0) (hwide : radius ≤ SpatialIndex.widened radius) :
    ∃ hits, withinBy search index center radius = .ok hits ∧
      ∀ distance j, (distance, j) ∈ hits ↔ ∃ p, index.points[j]? = some p ∧
        distance = Norm.euclidean.distance center p ∧ distance ≤ radius := by
  unfold withinBy
  rw [if_neg hradius, if_pos hcenter]
  refine ⟨_, rfl, fun distance j => ?_⟩
  rw [List.mem_filter, hsearch _ _ _ _ _ hpoints hcenter, decide_eq_true_iff]
  constructor
  · rintro ⟨⟨p, hp, hdistance, -⟩, hle⟩
    exact ⟨p, hp, hdistance, hle⟩
  · rintro ⟨p, hp, hdistance, hle⟩
    exact ⟨⟨p, hp, hdistance, OrderedScalar.le_trans hle hwide⟩, hle⟩

/-- A search around a center adds the atoms at most the radius away from it. -/
theorem addWithin_spec (hsearch : search.IsExact) (hfinite : ∀ a ∈ c.atoms, a.position.isFinite)
    {index : SpatialIndex α} (hpoints : index.points = c.positions) (hradius : ¬radius < 0)
    (hwide : radius ≤ SpatialIndex.widened radius) {a : Atom α} (ha : a ∈ c.atoms)
    (found : IdSet) :
    ∃ found', addWithin search c index radius found a = .ok found' ∧
      ∀ i, i ∈ found' ↔ i ∈ found ∨ ∃ b ∈ c.atoms, b.id = i ∧
        Norm.euclidean.distance a.position b.position ≤ radius := by
  have hfinite' : ∀ p ∈ index.points, p.isFinite := by
    rw [hpoints]
    intro p hp
    obtain ⟨a, ha, rfl⟩ := List.mem_map.1 hp
    exact hfinite a ha
  obtain ⟨hits, hok, hhits⟩ := withinBy_spec hsearch hfinite' (hfinite a ha) hradius hwide
  refine ⟨_, by rw [addWithin, hok]; rfl, fun i => ?_⟩
  rw [Std.TreeSet.mem_insertMany_list, List.contains_iff_mem]
  refine or_congr_right ?_
  simp only [List.mem_filterMap, Prod.exists, hhits, hpoints, Collection.positions,
    List.getElem?_map, Option.map_eq_some_iff]
  constructor
  · rintro ⟨distance, j, ⟨p, ⟨b, hb, rfl⟩, rfl, hle⟩, b', hb', rfl⟩
    cases hb.symm.trans hb'
    exact ⟨b, List.mem_of_getElem? hb, rfl, hle⟩
  · rintro ⟨b, hb, rfl, hle⟩
    obtain ⟨j, hj⟩ := List.mem_iff_getElem?.1 hb
    exact ⟨_, j, ⟨_, ⟨b, hj, rfl⟩, rfl, hle⟩, b, hj, rfl⟩

/-- Searches around some centers add the atoms at most the radius away from one of them. -/
theorem foldlM_addWithin_spec (hsearch : search.IsExact)
    (hfinite : ∀ a ∈ c.atoms, a.position.isFinite) {index : SpatialIndex α}
    (hpoints : index.points = c.positions) (hradius : ¬radius < 0)
    (hwide : radius ≤ SpatialIndex.widened radius) :
    ∀ (centers : List (Atom α)), (∀ a ∈ centers, a ∈ c.atoms) → ∀ found : IdSet,
      ∃ found', centers.foldlM (addWithin search c index radius) found = .ok found' ∧
        ∀ i, i ∈ found' ↔ i ∈ found ∨ ∃ a ∈ centers, ∃ b ∈ c.atoms, b.id = i ∧
          Norm.euclidean.distance a.position b.position ≤ radius
  | [], _, found => ⟨found, rfl, by simp⟩
  | a :: centers, hmem, found => by
    obtain ⟨ha, hmem⟩ := List.forall_mem_cons.1 hmem
    obtain ⟨found₁, hok₁, hfound₁⟩ :=
      addWithin_spec hsearch hfinite hpoints hradius hwide ha found
    obtain ⟨found₂, hok₂, hfound₂⟩ :=
      foldlM_addWithin_spec hsearch hfinite hpoints hradius hwide centers hmem found₁
    refine ⟨found₂, ?_, fun i => ?_⟩
    · rw [List.foldlM_cons, hok₁]
      exact hok₂
    · rw [hfound₂, hfound₁, or_assoc, List.exists_mem_cons_iff]

/-- **Searches around the centers find the atoms around a set.** -/
theorem isFinder_neighborhoodBy (hids : c.ids.Nodup)
    (hfinite : ∀ a ∈ c.atoms, a.position.isFinite) (hsupplied : IsFaithful c supplied)
    (hradius : ¬radius < 0) (hsearch : search.IsExact)
    (hwide : radius ≤ SpatialIndex.widened radius) :
    IsFinder c (neighborhoodBy search c supplied) radius := by
  intro centers q hcenters
  unfold neighborhoodBy
  rcases distanceIndex?_spec hfinite hsupplied with ⟨hnil, hnone⟩ | ⟨index, hindex, hpoints, hnorm⟩
  · rw [hnone]
    exact ⟨centers, rfl, isExtension_of_atoms_eq_nil hnil hcenters⟩
  · obtain ⟨found, hok, hfound⟩ := foldlM_addWithin_spec hsearch hfinite hpoints hradius hwide
      (c.atoms.filter fun a => centers.contains a.id) (fun a ha => (List.mem_filter.1 ha).1) centers
    rw [hindex]
    refine ⟨found, hok, fun i => ?_⟩
    rw [hfound, hcenters i]
    simp only [mem_filter_contains hids hcenters]
    constructor
    · rintro (⟨b, hb, hid, hq⟩ | ⟨a, ⟨ha, hq⟩, b, hb, hid, hle⟩)
      · exact ⟨b, hb, hid, .inl hq⟩
      · exact ⟨b, hb, hid, .inr ⟨a, ha, hq, hle⟩⟩
    · rintro ⟨b, hb, hid, hq | ⟨a, ha, hq, hle⟩⟩
      · exact .inl ⟨b, hb, hid, hq⟩
      · exact .inr ⟨a, ⟨ha, hq⟩, b, hb, hid, hle⟩

end

/-! ## Selections -/

/-- **A selection evaluates to what it says**, and selects the atoms of which it is true, in their
order. The same set comes out if the atoms around others are searched in a tree of points. -/
theorem evaluate_iff_holds {s : Selection} {c : Collection Double}
    {supplied : Option (SpatialIndex Double)} (hids : c.ids.Nodup)
    (hfinite : ∀ a ∈ c.atoms, a.position.isFinite)
    (hradii : ∀ radius ∈ s.predicate.radii, 0 ≤ radius) (hsupplied : IsFaithful c supplied) :
    ∃ ids edit, s.evaluate c supplied = .ok ids ∧ s.select c supplied = .ok edit ∧
      (∀ i ∈ ids, i ∈ c.ids) ∧
      (∀ b ∈ c.atoms, b.id ∈ ids ↔ s.predicate.Holds c b) ∧
      (∀ revision, (edit revision).1.atoms = c.atoms.filter fun b => s.predicate.Holds c b) ∧
      ∀ search : RadiusSearch Double, search.IsExact →
        (∀ radius ∈ s.predicate.radii, radius ≤ SpatialIndex.widened radius) →
          ∃ ids', s.predicate.evalWith c (neighborhoodBy search c supplied) = .ok ids' ∧
            ∀ i, i ∈ ids' ↔ i ∈ ids := by
  obtain ⟨ids, hok, hext⟩ := isExtension_evalWith hids s.predicate fun radius h =>
    isFinder_neighborhood hids hfinite hsupplied (OrderedScalar.not_lt_of_le (hradii radius h))
  have hselect : s.select c supplied = .ok (c.keep fun a => ids.contains a.id) := by
    unfold select Predicate.select Predicate.eval
    rw [hok]
    rfl
  refine ⟨ids, _, hok, hselect, ?_, fun b hb => hext.mem_iff hids hb, fun revision => ?_, ?_⟩
  · intro i hi
    obtain ⟨a, ha, rfl, -⟩ := (hext i).1 hi
    exact List.mem_map_of_mem ha
  · refine List.filter_congr fun b hb => ?_
    rw [Bool.eq_iff_iff, Std.TreeSet.contains_iff_mem, decide_eq_true_iff, hext.mem_iff hids hb]
  · intro search hsearch hwide
    obtain ⟨ids', hok', hext'⟩ := isExtension_evalWith hids s.predicate fun radius h =>
      isFinder_neighborhoodBy hids hfinite hsupplied (OrderedScalar.not_lt_of_le (hradii radius h))
        hsearch (hwide radius h)
    exact ⟨ids', hok', fun i => (hext' i).trans (hext i).symm⟩

/-- An atom on the x axis. -/
def atomAt (id : Nat) (x : Double) : Atom Double :=
  { Atom.placed "C" ⟨x, 0, 0⟩ with id }

/-- Three atoms in a row. -/
def atomRow : Collection Double :=
  ⟨[atomAt 1 0, atomAt 2 1.5, atomAt 3 3.0], {}, none, 0⟩

/-- The atoms next to the first one. -/
def besideFirst : Selection :=
  ⟨"exwithin 1.5 of id 1", .exwithin 1.5 (.id [1])⟩

theorem evaluate_besideFirst :
    ∃ ids ids', besideFirst.evaluate atomRow none = .ok ids ∧
      besideFirst.predicate.evalWith atomRow (neighborhoodBy scanSearch atomRow none) = .ok ids' ∧
      (∀ i, i ∈ ids' ↔ i ∈ ids) ∧ 1 ∉ ids ∧ 2 ∈ ids ∧ 3 ∉ ids := by
  obtain ⟨ids, edit, hok, -, -, hiff, -, hsearch⟩ := evaluate_iff_holds
    (s := besideFirst) (c := atomRow) (by decide) (by decide +kernel) (by decide +kernel)
    isFaithful_none
  obtain ⟨ids', hok', heq⟩ := hsearch scanSearch isExact_scanSearch (by decide +kernel)
  refine ⟨ids, ids', hok, hok', heq, mt (hiff (atomAt 1 0) ?_).1 ?_, (hiff (atomAt 2 1.5) ?_).2 ?_,
    mt (hiff (atomAt 3 3.0) ?_).1 ?_⟩
  · simp [atomRow]
  · decide +kernel
  · simp [atomRow]
  · decide +kernel
  · simp [atomRow]
  · decide +kernel

end Honeycomb.Selection
