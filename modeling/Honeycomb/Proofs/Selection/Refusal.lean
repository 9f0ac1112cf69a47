import Honeycomb.Proofs.Selection.Meaning

/-!
# Selections that fail

* `Predicate.terms` — all terms of a predicate. `Predicate.LooksAround` — one of them asks for the
  atoms around others; `isSpatial_iff` — the test of a predicate finds this out, although it does
  not look into such a term.
* `StaysInside` — a way to find the atoms around others gives ids of atoms if it is given such ids;
  `exists_ids_of_evalWith` — then evaluation succeeds.
* `evalWith_of_refused` — if there is no way to find the atoms around others, evaluation fails on
  the predicates that ask for them, and only on these.

Principal result: `evaluate_fails_iff` — a selection fails just when it looks around and an atom
has no finite position.
-/

set_option autoImplicit false

namespace Honeycomb.Selection

/-! ## Terms -/

section

variable {α : Type}

/-- A predicate and all predicates inside it. -/
def Predicate.terms : Predicate α → List (Predicate α)
  | within radius inner => within radius inner :: inner.terms
  | exwithin radius inner => exwithin radius inner :: inner.terms
  | not inner => not inner :: inner.terms
  | and left right => and left right :: (left.terms ++ right.terms)
  | or left right => or left right :: (left.terms ++ right.terms)
  | leaf => [leaf]

/-- Some term asks for the atoms around others. -/
def Predicate.LooksAround (p : Predicate α) : Prop :=
  ∃ radius inner, within radius inner ∈ p.terms ∨ exwithin radius inner ∈ p.terms

/-- A term that asks for the atoms around others is found from outside. -/
theorem isSpatial_iff (p : Predicate α) : p.isSpatial = true ↔ p.LooksAround := by
  unfold Predicate.LooksAround
  induction p with
  | within radius inner =>
    exact iff_of_true rfl ⟨radius, inner, .inl List.mem_cons_self⟩
  | exwithin radius inner =>
    exact iff_of_true rfl ⟨radius, inner, .inr List.mem_cons_self⟩
  | not inner ih => simpa [Predicate.isSpatial, Predicate.terms] using ih
  | and left right ihl ihr | or left right ihl ihr =>
    simp only [Predicate.isSpatial, Predicate.terms, Bool.or_eq_true, ihl, ihr, List.mem_cons,
      List.mem_append, reduceCtorEq, false_or, ← exists_or]
    exact exists_congr fun _ => exists_congr fun _ => or_or_or_comm ..
  | _ => simp [Predicate.isSpatial, Predicate.terms]

end

variable {α : Type} [Scalar α] {c : Collection α}

/-! ## The evaluator -/

section

variable {addAround : α → IdSet → Except (Error α) IdSet}

/-- All members of a set are ids of atoms. -/
def IsOfAtoms (c : Collection α) (ids : IdSet) : Prop :=
  ∀ i ∈ ids, i ∈ c.ids

omit [Scalar α] in
theorem isOfAtoms_allIds : IsOfAtoms c (allIds c) := by
  intro i hi
  obtain ⟨a, ha, rfl, -⟩ := (isExtension_allIds i).1 hi
  exact List.mem_map_of_mem ha

omit [Scalar α] in
theorem isOfAtoms_idsWhere (q : Atom α → Bool) : IsOfAtoms c (idsWhere c q) := by
  intro i hi
  obtain ⟨a, ha, rfl, -⟩ := (isExtension_idsWhere (fun _ => Iff.rfl) i).1 hi
  exact List.mem_map_of_mem ha

/-- A way to add the atoms around a set succeeds, and adds nothing but atoms. -/
def StaysInside (c : Collection α) (addAround : α → IdSet → Except (Error α) IdSet) : Prop :=
  ∀ radius centers, IsOfAtoms c centers →
    ∃ found, addAround radius centers = .ok found ∧ IsOfAtoms c found

/-- **Evaluation succeeds** if the atoms around others can be found. -/
theorem exists_ids_of_evalWith (h : StaysInside c addAround) :
    ∀ p : Predicate α, ∃ ids, p.evalWith c addAround = .ok ids ∧ IsOfAtoms c ids
  | .all => ⟨_, rfl, isOfAtoms_allIds⟩
  | .nothing => ⟨∅, rfl, fun _ hi => absurd hi Std.TreeSet.not_mem_emptyc⟩
  | .id _ | .molecule _ | .type _ | .element _ | .compare _ _ _ | .inside _ =>
    ⟨_, rfl, isOfAtoms_idsWhere _⟩
  | .within radius inner => by
    obtain ⟨centers, hok, hcenters⟩ := exists_ids_of_evalWith h inner
    obtain ⟨found, hfound, hinside⟩ := h radius centers hcenters
    exact ⟨found, (evalWith_within hok).trans hfound, hinside⟩
  | .exwithin radius inner => by
    obtain ⟨centers, hok, hcenters⟩ := exists_ids_of_evalWith h inner
    obtain ⟨found, hfound, hinside⟩ := h radius centers hcenters
    refine ⟨found \ centers, evalWith_exwithin_eq_ok hok hfound, fun i hi => ?_⟩
    exact hinside i (Std.TreeSet.mem_diff_iff.1 hi).1
  | .not inner => by
    obtain ⟨ids, hok, -⟩ := exists_ids_of_evalWith h inner
    refine ⟨allIds c \ ids, evalWith_not_eq_ok hok, fun i hi => ?_⟩
    exact isOfAtoms_allIds i (Std.TreeSet.mem_diff_iff.1 hi).1
  | .and left right => by
    obtain ⟨l, hl, hleft⟩ := exists_ids_of_evalWith h left
    obtain ⟨r, hr, -⟩ := exists_ids_of_evalWith h right
    refine ⟨l ∩ r, evalWith_and_eq_ok hl hr, fun i hi => ?_⟩
    exact hleft i (Std.TreeSet.mem_inter_iff.1 hi).1
  | .or left right => by
    obtain ⟨l, hl, hleft⟩ := exists_ids_of_evalWith h left
    obtain ⟨r, hr, hright⟩ := exists_ids_of_evalWith h right
    refine ⟨l ∪ r, evalWith_or_eq_ok hl hr, fun i hi => ?_⟩
    exact (Std.TreeSet.mem_union_iff.1 hi).elim (hleft i) (hright i)

/-- No atoms around others are looked for. -/
def addNothing (_radius : α) (centers : IdSet) : Except (Error α) IdSet :=
  .ok centers

omit [Scalar α] in
theorem staysInside_addNothing : StaysInside c addNothing :=
  fun _ centers hcenters => ⟨centers, rfl, hcenters⟩

theorem exists_ids_of_addNothing (c : Collection α) (p : Predicate α) :
    ∃ ids, p.evalWith c addNothing = .ok ids ∧ IsOfAtoms c ids :=
  exists_ids_of_evalWith staysInside_addNothing p

/-- What is looked for around is refused, or there is something to look around. -/
theorem refused_or_exists_ids {e : Error α} {p : Predicate α} (h : p.evalWith c addAround =
      if p.isSpatial then .error e else p.evalWith c addNothing) :
    p.evalWith c addAround = .error e ∨ ∃ ids, p.evalWith c addAround = .ok ids := by
  rw [h]
  split
  · exact .inl rfl
  · obtain ⟨ids, hok, -⟩ := exists_ids_of_addNothing c p
    exact .inr ⟨ids, hok⟩

/-- If the atoms around others cannot be found, **a predicate that asks for them fails**, wherever
it does so, and any other one does not. -/
theorem evalWith_of_refused {e : Error α}
    (h : ∀ radius centers, addAround radius centers = .error e) (p : Predicate α) :
    p.evalWith c addAround = if p.isSpatial then .error e else p.evalWith c addNothing := by
  induction p with
  | within radius inner ih =>
    rw [Predicate.evalWith, Predicate.isSpatial, if_pos rfl]
    rcases refused_or_exists_ids ih with hinner | ⟨centers, hinner⟩
    · rw [hinner]
      rfl
    · rw [hinner]
      exact h radius centers
  | exwithin radius inner ih =>
    rw [Predicate.evalWith, Predicate.isSpatial, if_pos rfl]
    rcases refused_or_exists_ids ih with hinner | ⟨centers, hinner⟩
    · rw [hinner]
      rfl
    · rw [hinner]
      change (do return (← addAround radius centers) \ centers) = _
      rw [h]
      rfl
  | not inner ih =>
    rw [Predicate.evalWith, Predicate.isSpatial, Predicate.evalWith, ih]
    split <;> rfl
  | and left right ihl ihr | or left right ihl ihr =>
    rw [Predicate.evalWith, Predicate.isSpatial, Predicate.evalWith, ihl]
    cases hl : left.isSpatial with
    | true => rfl
    | false =>
      -- the first operand succeeds, and the second one decides
      obtain ⟨l, hok, -⟩ := exists_ids_of_addNothing c left
      rw [if_neg Bool.false_ne_true, hok, ihr]
      cases hr : right.isSpatial <;> rfl
  | _ => rfl

end

/-! ## Finding the atoms around others -/

section

variable {search : RadiusSearch α} {index : SpatialIndex α} {radius : α} {centers found : IdSet}

/-- An index over finite positions. -/
theorem exists_index_of_finite (hfinite : ∀ a ∈ c.atoms, a.position.isFinite) :
    distanceIndex? c none = .ok none ∨
      ∃ index, distanceIndex? c none = .ok (some index) ∧ index.points = c.positions := by
  rcases distanceIndex?_spec hfinite isFaithful_none with ⟨-, hnone⟩ | ⟨index, hindex, hpoints, -⟩
  · exact .inl hnone
  · exact .inr ⟨index, hindex, hpoints⟩

/-- From finite centers every radius can be reached. -/
theorem exists_reach (index : SpatialIndex α) (radius : α) {places : List (Vec3 α)}
    (hplaces : ∀ p ∈ places, p.isFinite) :
    ∃ isReached, index.reach places radius = .ok isReached := by
  unfold SpatialIndex.reach
  rw [if_pos (List.all_eq_true.2 hplaces)]
  split
  · exact ⟨_, rfl⟩
  · exact ⟨_, rfl⟩

/-- A search around a finite center succeeds. -/
theorem exists_withinBy (search : RadiusSearch α) (index : SpatialIndex α) (radius : α)
    {center : Vec3 α} (hcenter : center.isFinite) :
    ∃ hits, withinBy search index center radius = .ok hits := by
  unfold withinBy
  rw [if_pos hcenter]
  split
  · exact ⟨_, rfl⟩
  · exact ⟨_, rfl⟩

/-- **Comparing all distances succeeds** if all positions are finite. -/
theorem staysInside_neighborhood (hfinite : ∀ a ∈ c.atoms, a.position.isFinite) :
    StaysInside c (neighborhood c none) := by
  intro radius centers hcenters
  unfold neighborhood
  rcases exists_index_of_finite hfinite with hnone | ⟨index, hindex, hpoints⟩
  · rw [hnone]
    exact ⟨centers, rfl, hcenters⟩
  · have hplaces : ∀ p ∈ (c.atoms.filter fun a => centers.contains a.id).map (·.position),
        p.isFinite :=
      List.forall_mem_map.2 fun a ha => hfinite a (List.mem_filter.1 ha).1
    obtain ⟨isReached, hreach⟩ := exists_reach index radius hplaces
    rw [hindex]
    change ∃ found, (do
      let isReached ← index.reach _ radius
      return _) = Except.ok found ∧ _
    rw [hreach]
    refine ⟨_, rfl, fun i hi => ?_⟩
    rw [hpoints] at hi
    rcases mem_insertMany_iff.1 hi with hi | ⟨a, ha, rfl, -⟩
    · exact hcenters i hi
    · exact List.mem_map_of_mem ha

/-- A search around one atom adds nothing but atoms. -/
theorem exists_addWithin (search : RadiusSearch α) (index : SpatialIndex α) (radius : α)
    {a : Atom α} (ha : a.position.isFinite) (hfound : IsOfAtoms c found) :
    ∃ found', addWithin search c index radius found a = .ok found' ∧ IsOfAtoms c found' := by
  obtain ⟨hits, hhits⟩ := exists_withinBy search index radius ha
  refine ⟨_, by rw [addWithin, hhits]; rfl, fun i hi => ?_⟩
  rw [Std.TreeSet.mem_insertMany_list, List.contains_iff_mem] at hi
  rcases hi with hi | hi
  · exact hfound i hi
  · obtain ⟨hit, -, hhit⟩ := List.mem_filterMap.1 hi
    obtain ⟨b, hb, rfl⟩ := Option.map_eq_some_iff.1 hhit
    exact List.mem_map_of_mem (List.mem_of_getElem? hb)

/-- Searches around some atoms add nothing but atoms. -/
theorem exists_foldlM_addWithin :
    ∀ (atoms : List (Atom α)), (∀ a ∈ atoms, a.position.isFinite) → ∀ {found : IdSet},
      IsOfAtoms c found →
        ∃ found', atoms.foldlM (addWithin search c index radius) found = .ok found' ∧
          IsOfAtoms c found'
  | [], _, found, hfound => ⟨found, rfl, hfound⟩
  | a :: atoms, hfinite, found, hfound => by
    obtain ⟨ha, hfinite⟩ := List.forall_mem_cons.1 hfinite
    obtain ⟨next, hnext, hinside⟩ := exists_addWithin search index radius ha hfound
    rw [List.foldlM_cons, hnext]
    exact exists_foldlM_addWithin atoms hfinite hinside

/-- **Searches around the centers succeed** if all positions are finite. -/
theorem staysInside_neighborhoodBy (search : RadiusSearch α)
    (hfinite : ∀ a ∈ c.atoms, a.position.isFinite) :
    StaysInside c (neighborhoodBy search c none) := by
  intro radius centers hcenters
  unfold neighborhoodBy
  rcases exists_index_of_finite hfinite with hnone | ⟨index, hindex, -⟩
  · rw [hnone]
    exact ⟨centers, rfl, hcenters⟩
  · rw [hindex]
    exact exists_foldlM_addWithin _ (fun a ha => hfinite a (List.mem_filter.1 ha).1) hcenters

/-- The first atom without finite position is named. -/
theorem distanceIndex?_eq_error {i : Nat} (h : c.positions.findIdx? (!·.isFinite) = some i) :
    distanceIndex? c none = .error (.nonFiniteAtom i) := by
  unfold distanceIndex? usableIndex? SpatialIndex.ofPoints?
  rw [h]
  rfl

theorem neighborhood_eq_error {i : Nat} (h : c.positions.findIdx? (!·.isFinite) = some i) :
    neighborhood c none radius centers = .error (.nonFiniteAtom i) := by
  unfold neighborhood
  rw [distanceIndex?_eq_error h]
  rfl

theorem neighborhoodBy_eq_error {i : Nat} (h : c.positions.findIdx? (!·.isFinite) = some i) :
    neighborhoodBy search c none radius centers = .error (.nonFiniteAtom i) := by
  unfold neighborhoodBy
  rw [distanceIndex?_eq_error h]
  rfl

end

/-! ## Failure -/

/-- The atoms around others are asked for, and there is one whose position is not finite. -/
def MustFail (p : Predicate α) (c : Collection α) : Prop :=
  p.LooksAround ∧ ∃ a ∈ c.atoms, a.position.isFinite = false

/-- An evaluation fails just when it must, with the number of the first atom whose position is not
finite. Otherwise it gives ids of atoms. -/
structure FailsAsItMust (p : Predicate α) (c : Collection α)
    (outcome : Except (Error α) IdSet) : Prop where
  fails_iff : (∃ e, outcome = .error e) ↔ MustFail p c
  error_eq : ∀ e, outcome = .error e →
    ∃ i, c.positions.findIdx? (!·.isFinite) = some i ∧ e = .nonFiniteAtom i
  succeeds : ¬MustFail p c → ∃ ids, outcome = .ok ids ∧ ∀ i ∈ ids, i ∈ c.ids

/-- A way to find the atoms around others that succeeds on finite positions and names the first
other one makes evaluation fail just when it must. -/
theorem failsAsItMust_evalWith {addAround : α → IdSet → Except (Error α) IdSet}
    (hok : (∀ a ∈ c.atoms, a.position.isFinite) → StaysInside c addAround)
    (hrefused : ∀ i, c.positions.findIdx? (!·.isFinite) = some i →
      ∀ radius centers, addAround radius centers = .error (.nonFiniteAtom i))
    (p : Predicate α) : FailsAsItMust p c (p.evalWith c addAround) := by
  cases hfirst : c.positions.findIdx? (!·.isFinite) with
  | none =>
    have hfinite : ∀ a ∈ c.atoms, a.position.isFinite := fun a ha =>
      SpatialIndex.findIdx?_finite_eq_none_iff.1 hfirst _ (List.mem_map_of_mem ha)
    obtain ⟨ids, hids, hinside⟩ := exists_ids_of_evalWith (hok hfinite) p
    have hnot : ¬MustFail p c := fun ⟨_, a, ha, hbad⟩ => by
      rw [hfinite a ha] at hbad
      cases hbad
    rw [hids]
    exact ⟨iff_of_false nofun hnot, nofun, fun _ => ⟨ids, rfl, hinside⟩⟩
  | some i =>
    have hbad : ∃ a ∈ c.atoms, a.position.isFinite = false := by
      obtain ⟨p, hp, hbad⟩ := SpatialIndex.exists_findIdx?_finite_iff.1 ⟨i, hfirst⟩
      obtain ⟨a, ha, rfl⟩ := List.mem_map.1 hp
      exact ⟨a, ha, hbad⟩
    rw [evalWith_of_refused (hrefused i hfirst)]
    cases hspatial : p.isSpatial with
    | true =>
      have hmust : MustFail p c := ⟨(isSpatial_iff p).1 hspatial, hbad⟩
      refine ⟨iff_of_true ⟨_, rfl⟩ hmust, fun e he => ?_, fun hnot => absurd hmust hnot⟩
      exact ⟨i, hfirst, (Except.error.inj he).symm⟩
    | false =>
      have hnot : ¬MustFail p c := fun hmust => by
        rw [(isSpatial_iff p).2 hmust.1] at hspatial
        cases hspatial
      obtain ⟨ids, hids, hinside⟩ := exists_ids_of_addNothing c p
      rw [if_neg Bool.false_ne_true, hids]
      exact ⟨iff_of_false nofun hnot, nofun, fun _ => ⟨ids, rfl, hinside⟩⟩

/-- **A selection fails exactly when it must**: when it looks around, which the test of its
predicate tells, and the position of an atom is not finite. It comes to the same if the atoms
around others are searched in a tree of points, whatever the search finds. -/
theorem evaluate_fails_iff (s : Selection) (c : Collection Double) :
    (s.predicate.isSpatial = true ↔ s.predicate.LooksAround) ∧
      FailsAsItMust s.predicate c (s.evaluate c none) ∧
      ∀ search : RadiusSearch Double,
        FailsAsItMust s.predicate c (s.predicate.evalWith c (neighborhoodBy search c none)) := by
  refine ⟨isSpatial_iff _, ?_, fun search => ?_⟩
  · exact failsAsItMust_evalWith staysInside_neighborhood
      (fun i hi radius centers => neighborhood_eq_error hi) s.predicate
  · exact failsAsItMust_evalWith (staysInside_neighborhoodBy search)
      (fun i hi radius centers => neighborhoodBy_eq_error hi) s.predicate

end Honeycomb.Selection
