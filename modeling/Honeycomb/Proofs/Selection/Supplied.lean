import Honeycomb.Proofs.Collection.Revision
import Honeycomb.Proofs.Selection.Meaning

/-!
# Selections with an index made before

* `isFaithful_of_mem_indexes` — in every session all indexes are faithful.
* `distanceIndex?_eq_of_built` — a faithful index that is used is the one that would be made now.

Principal result: `evaluate_supplied_eq` — in every session, whichever index is supplied, a
selection comes out as it does without one, or fails as it does without one.
-/

set_option autoImplicit false

namespace Honeycomb.Selection

variable {α : Type} [Scalar α] {c : Collection α} {index : SpatialIndex α}

/-- A faithful index that is used is the one that would be made now. -/
theorem distanceIndex?_eq_of_built
    (hbuilt : SpatialIndex.ofPoints? index.points index.norm index.revision = .ok (some index))
    (hfaithful : IsFaithful c (some index)) :
    distanceIndex? c (some index) = distanceIndex? c none := by
  unfold distanceIndex?
  cases husable : usableIndex? c (some index) with
  | none => rfl
  | some found =>
    obtain ⟨hfound, hcurrent, hnorm⟩ := usableIndex?_eq_some_iff.1 husable
    obtain rfl := Option.some.inj hfound
    have hrevision := SpatialIndex.revision_eq_of_not_isStale hcurrent
    rw [hfaithful index rfl hrevision, hnorm, hrevision] at hbuilt
    exact hbuilt.symm

variable {actions : List (Session.Action α)}

/-- In every session all indexes are faithful to all collections. -/
theorem isFaithful_of_mem_indexes (hindex : index ∈ (Session.run actions).indexes)
    (hc : c ∈ (Session.run actions).alive) : IsFaithful c (some index) := by
  obtain ⟨history, h⟩ := Session.exists_accounts_run actions
  intro found hfound hrevision
  obtain rfl := Option.some.inj hfound
  exact h.points_eq hindex hc hrevision

/-- In every session, an index that is used is the one that would be made now. -/
theorem distanceIndex?_eq_none (hindex : index ∈ (Session.run actions).indexes)
    (hc : c ∈ (Session.run actions).alive) :
    distanceIndex? c (some index) = distanceIndex? c none := by
  obtain ⟨history, h⟩ := Session.exists_accounts_run actions
  exact distanceIndex?_eq_of_built (h.built index hindex) (isFaithful_of_mem_indexes hindex hc)

theorem neighborhood_congr {supplied supplied' : Option (SpatialIndex α)}
    (h : distanceIndex? c supplied = distanceIndex? c supplied') :
    neighborhood c supplied = neighborhood c supplied' := by
  funext radius centers
  unfold neighborhood
  rw [h]

theorem neighborhoodBy_congr {search : RadiusSearch α}
    {supplied supplied' : Option (SpatialIndex α)}
    (h : distanceIndex? c supplied = distanceIndex? c supplied') :
    neighborhoodBy search c supplied = neighborhoodBy search c supplied' := by
  funext radius centers
  unfold neighborhoodBy
  rw [h]

/-- **A supplied index never changes what a selection comes to**, also if the atoms around others
are searched in a tree of points. -/
theorem evaluate_supplied_eq {actions : List (Session.Action Double)} {c : Collection Double}
    {index : SpatialIndex Double} (hindex : index ∈ (Session.run actions).indexes)
    (hc : c ∈ (Session.run actions).alive) (s : Selection) :
    s.evaluate c (some index) = s.evaluate c none ∧
      ∀ search : RadiusSearch Double,
        s.predicate.evalWith c (neighborhoodBy search c (some index)) =
          s.predicate.evalWith c (neighborhoodBy search c none) := by
  have hsame := distanceIndex?_eq_none hindex hc
  constructor
  · unfold evaluate Predicate.eval
    rw [neighborhood_congr hsame]
  · intro search
    rw [neighborhoodBy_congr hsame]

/-- The atoms around carbon. -/
def aroundCarbon : Selection :=
  ⟨"within 1.5 of element C", .within 1.5 (.element ["C"])⟩

theorem evaluate_supplied_eq_copy :
    ∃ index ∈ (Session.run Session.movedFromCopy).indexes,
      ∃ c ∈ (Session.run Session.movedFromCopy).alive, index.isStale c = false ∧
        aroundCarbon.evaluate c (some index) = aroundCarbon.evaluate c none := by
  have hindex : (Session.run Session.movedFromCopy).indexes[0]? =
      some ⟨Session.atomPair.map (·.position), .euclidean, 1⟩ := by rfl
  have hcopy : (Session.run Session.movedFromCopy).alive[1]? =
      some ⟨Session.atomPair, {}, none, 1⟩ := by rfl
  have hmem := List.mem_of_getElem? hindex
  have hmem' := List.mem_of_getElem? hcopy
  exact ⟨_, hmem, _, hmem', by rfl, (evaluate_supplied_eq hmem hmem' aroundCarbon).1⟩

end Honeycomb.Selection
