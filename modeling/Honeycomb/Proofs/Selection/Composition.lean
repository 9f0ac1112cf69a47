import Honeycomb.Proofs.Selection.Meaning

/-!
# Selections one after the other

* `IsPart` — one set of ids is the part of another one inside a third. Differences, intersections
  and unions of parts are parts.
* `exists_part_of_evalWith` — among the atoms whose ids stand in a set, a predicate that does not
  look around has the ids inside that set of those it has among all atoms.

Principal result: `select_select` — to select from what was selected comes to the same as to select
with both predicates at once.
-/

set_option autoImplicit false

namespace Honeycomb.Selection

/-! ## Parts of sets -/

section

variable {ids part part' whole whole' : IdSet}

/-- A set has the members of another one that stand in `ids`. -/
def IsPart (ids part whole : IdSet) : Prop :=
  ∀ i, i ∈ part ↔ i ∈ ids ∧ i ∈ whole

theorem IsPart.diff (h : IsPart ids part whole) (h' : IsPart ids part' whole') :
    IsPart ids (part \ part') (whole \ whole') := by
  intro i
  rw [Std.TreeSet.mem_diff_iff, Std.TreeSet.mem_diff_iff, h i, h' i]
  constructor
  · rintro ⟨⟨hi, hwhole⟩, hnot⟩
    exact ⟨hi, hwhole, fun hwhole' => hnot ⟨hi, hwhole'⟩⟩
  · rintro ⟨hi, hwhole, hnot⟩
    exact ⟨⟨hi, hwhole⟩, fun hpart' => hnot hpart'.2⟩

theorem IsPart.inter (h : IsPart ids part whole) (h' : IsPart ids part' whole') :
    IsPart ids (part ∩ part') (whole ∩ whole') := by
  intro i
  rw [Std.TreeSet.mem_inter_iff, Std.TreeSet.mem_inter_iff, h i, h' i]
  exact and_and_left.symm

theorem IsPart.union (h : IsPart ids part whole) (h' : IsPart ids part' whole') :
    IsPart ids (part ∪ part') (whole ∪ whole') := by
  intro i
  rw [Std.TreeSet.mem_union_iff, Std.TreeSet.mem_union_iff, h i, h' i]
  exact and_or_left.symm

theorem IsPart.mem_inter_iff (h : IsPart ids part whole) {i : Nat} :
    i ∈ part ↔ i ∈ ids ∩ whole := by
  rw [h i, Std.TreeSet.mem_inter_iff]

variable {α : Type} {c sub : Collection α}

/-- A property has the same extension among some atoms as among all, as far as their ids go. -/
theorem IsExtension.isPart (hsub : sub.atoms = c.atoms.filter fun a => ids.contains a.id)
    {q : Atom α → Prop} (h : IsExtension sub part q) (h' : IsExtension c whole q) :
    IsPart ids part whole := by
  intro i
  rw [h i, h' i, hsub]
  simp only [List.mem_filter, Std.TreeSet.contains_iff_mem]
  constructor
  · rintro ⟨a, ⟨ha, hid⟩, rfl, hq⟩
    exact ⟨hid, a, ha, rfl, hq⟩
  · rintro ⟨hid, a, ha, rfl, hq⟩
    exact ⟨a, ⟨ha, hid⟩, rfl, hq⟩

theorem isPart_allIds (hsub : sub.atoms = c.atoms.filter fun a => ids.contains a.id) :
    IsPart ids (allIds sub) (allIds c) :=
  isExtension_allIds.isPart hsub isExtension_allIds

theorem isPart_idsWhere (hsub : sub.atoms = c.atoms.filter fun a => ids.contains a.id)
    (test : Atom α → Bool) : IsPart ids (idsWhere sub test) (idsWhere c test) :=
  (isExtension_idsWhere fun _ => Iff.rfl).isPart hsub (isExtension_idsWhere fun _ => Iff.rfl)

end

/-! ## Among selected atoms -/

section

variable {α : Type} [Scalar α] {c sub : Collection α} {ids : IdSet}

/-- **A predicate among the atoms with some ids** has its part of what it has among all atoms, as
long as it does not look around: whatever the ways to find the atoms around others. -/
theorem exists_part_of_evalWith (addAround addAround' : α → IdSet → Except (Error α) IdSet)
    (hsub : sub.atoms = c.atoms.filter fun a => ids.contains a.id) :
    ∀ q : Predicate α, q.isSpatial = false →
      ∃ part whole, q.evalWith sub addAround = .ok part ∧ q.evalWith c addAround' = .ok whole ∧
        IsPart ids part whole
  | .all, _ => ⟨_, _, rfl, rfl, isPart_allIds hsub⟩
  | .nothing, _ => ⟨∅, ∅, rfl, rfl, fun i => by simp⟩
  | .id _, _ | .molecule _, _ | .type _, _ | .element _, _ | .compare _ _ _, _ | .inside _, _ =>
    ⟨_, _, rfl, rfl, isPart_idsWhere hsub _⟩
  | .within _ _, hspatial | .exwithin _ _, hspatial => by cases hspatial
  | .not inner, hspatial => by
    obtain ⟨part, whole, hpart, hwhole, h⟩ :=
      exists_part_of_evalWith addAround addAround' hsub inner hspatial
    -- the complements are taken among different atoms
    exact ⟨allIds sub \ part, allIds c \ whole, evalWith_not_eq_ok hpart,
      evalWith_not_eq_ok hwhole, (isPart_allIds hsub).diff h⟩
  | .and left right, hspatial => by
    obtain ⟨hleft, hright⟩ := Bool.or_eq_false_iff.1 hspatial
    obtain ⟨l, l', hl, hl', h⟩ :=
      exists_part_of_evalWith addAround addAround' hsub left hleft
    obtain ⟨r, r', hr, hr', h'⟩ :=
      exists_part_of_evalWith addAround addAround' hsub right hright
    exact ⟨l ∩ r, l' ∩ r', evalWith_and_eq_ok hl hr, evalWith_and_eq_ok hl' hr', h.inter h'⟩
  | .or left right, hspatial => by
    obtain ⟨hleft, hright⟩ := Bool.or_eq_false_iff.1 hspatial
    obtain ⟨l, l', hl, hl', h⟩ :=
      exists_part_of_evalWith addAround addAround' hsub left hleft
    obtain ⟨r, r', hr, hr', h'⟩ :=
      exists_part_of_evalWith addAround addAround' hsub right hright
    exact ⟨l ∪ r, l' ∪ r', evalWith_or_eq_ok hl hr, evalWith_or_eq_ok hl' hr', h.union h'⟩

end

/-! ## Selecting twice -/

section

variable {α : Type} [Scalar α] {c : Collection α} {supplied : Option (SpatialIndex α)}

theorem select_eq_ok {p : Predicate α} {ids : IdSet} (h : p.eval c supplied = .ok ids) :
    p.select c supplied = .ok (c.keep fun a => ids.contains a.id) := by
  unfold Predicate.select
  rw [h]
  rfl

/-- **Selections compose.** Whichever indexes are supplied, a predicate that does not look around
gives among the atoms that another one selects the intersection of what both give among all atoms.
It selects from them the atoms that both predicates together select, in the same order. -/
theorem select_select {p q : Predicate α} {ids : IdSet} (hp : p.eval c supplied = .ok ids)
    (hq : q.isSpatial = false) :
    ∃ others first both,
      q.eval c supplied = .ok others ∧ p.select c supplied = .ok first ∧
      (p.and q).eval c supplied = .ok (ids ∩ others) ∧ (p.and q).select c supplied = .ok both ∧
      ∀ revision supplied', ∃ found second,
        q.eval (first revision).1 supplied' = .ok found ∧
        (∀ i, i ∈ found ↔ i ∈ ids ∩ others) ∧
        q.select (first revision).1 supplied' = .ok second ∧
        ∀ revision' revision'', (second revision').1.atoms = (both revision'').1.atoms ∧
          (second revision').1.params = (both revision'').1.params := by
  have hsub (revision : Revision) : ((c.keep fun a => ids.contains a.id) revision).1.atoms =
      c.atoms.filter fun a => ids.contains a.id := rfl
  obtain ⟨-, others, -, hothers, -⟩ := exists_part_of_evalWith
    (neighborhood c supplied) (neighborhood c supplied) (hsub 0) q hq
  have hboth : (p.and q).eval c supplied = .ok (ids ∩ others) := evalWith_and_eq_ok hp hothers
  refine ⟨others, _, _, hothers, select_eq_ok hp, hboth, select_eq_ok hboth, ?_⟩
  intro revision supplied'
  obtain ⟨found, others', hfound, hothers', hpart⟩ := exists_part_of_evalWith
    (neighborhood _ supplied') (neighborhood c supplied) (hsub revision) q hq
  obtain rfl := Except.ok.inj (hothers.symm.trans hothers')
  refine ⟨found, _, hfound, fun i => hpart.mem_inter_iff, select_eq_ok hfound, ?_⟩
  refine fun revision' revision'' => ⟨?_, rfl⟩
  change (c.atoms.filter fun a => ids.contains a.id).filter _ = c.atoms.filter _
  rw [List.filter_filter]
  refine List.filter_congr fun a _ => ?_
  rw [Bool.eq_iff_iff, Bool.and_eq_true]
  simp only [Std.TreeSet.contains_iff_mem, hpart a.id, Std.TreeSet.mem_inter_iff]
  exact and_iff_left_of_imp And.left

end

/-- Three atoms; two of them have the same id. -/
def sharedId : Collection Double :=
  ⟨[{ Atom.placed "C" 0 with id := 1 }, { Atom.placed "N" 0 with id := 1 },
    { Atom.placed "C" 0 with id := 2 }], {}, none, 0⟩

/-- Carbon, and not boron. -/
def carbonNotBoron : Predicate Double :=
  .and (.not (.element ["B"])) (.element ["C"])

theorem select_select_sharedId :
    ∃ first second, (Predicate.element ["N"]).select sharedId none = .ok first ∧
      carbonNotBoron.select (first 1).1 none = .ok second ∧
      (second 2).1.atoms.map (·.element) = ["C", "N"] := by
  have hnitrogen : (Predicate.element ["N"]).eval sharedId none =
      .ok (idsWhere sharedId fun a => ["N"].contains a.element) := rfl
  obtain ⟨others, first, both, -, hfirst, -, hboth, h⟩ :=
    select_select hnitrogen (q := carbonNotBoron) rfl
  obtain ⟨found, second, -, -, hsecond, hsame⟩ := h 1 none
  refine ⟨first, second, hfirst, hsecond, ?_⟩
  rw [(hsame 2 3).1, ← Except.ok.inj hboth]
  decide +kernel

end Honeycomb.Selection
