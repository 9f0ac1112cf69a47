import Honeycomb.Proofs.Collection.Operation

/-!
# References to neighbors

* `Collection.find?_eq_some_iff`, `Collection.ids_neighborsOf` — with distinct ids, an atom is found
  by its id, and a neighbor list leads to the atoms that are there.
* `AreConsistent` — every reference is to another atom, and if that atom is there its distance is
  right. One lemma for each way in which operations change the atoms: `AreConsistent.of_unlisted`,
  `AreConsistent.of_subset`, `AreConsistent.of_views`, `AreConsistent.append`,
  `Collection.areConsistent_storeNeighbors`.
* `Collection.Operation.IsAdmissible` — new atoms and free edits bring no references.
  `Collection.IsReached` — what admissible operations lead to, with the norm that the neighbor lists
  were found in.
* `Collection.areConsistent_perform`, `Collection.IsReached.areConsistent` — one step, and a run.

Principal result: `Collection.reference_resolves` — references are never wrong.
-/

set_option autoImplicit false

namespace Honeycomb

variable {α : Type}

/-! ## Atoms by their ids -/

namespace Collection

variable {c : Collection α} {a b : Atom α} {id : Nat}

theorem mem_of_find? (h : c.find? id = some a) : a ∈ c.atoms := by
  unfold find? at h
  dsimp only at h
  split at h
  · rename_i b hb
    cases h
    split at hb
    · cases hb
    · exact List.mem_of_getElem? (Option.filter_eq_some_iff.1 hb).1
  · exact List.mem_of_find?_eq_some h

theorem find?_eq_none_iff : c.find? id = none ↔ id ∉ c.ids := by
  constructor
  · intro h hid
    obtain ⟨a, ha, rfl⟩ := List.mem_map.1 hid
    unfold find? at h
    dsimp only at h
    split at h
    · cases h
    · simpa using List.find?_eq_none.1 h a ha
  · intro hid
    cases h : c.find? id with
    | none => rfl
    | some a => exact absurd (id_of_find? h ▸ List.mem_map_of_mem (mem_of_find? h)) hid

/-- With distinct ids, what is found is the atom with the id, wherever it stands. -/
theorem find?_eq_some_iff (hids : c.ids.Nodup) :
    c.find? id = some a ↔ a ∈ c.atoms ∧ a.id = id := by
  constructor
  · intro h
    exact ⟨mem_of_find? h, id_of_find? h⟩
  · rintro ⟨ha, rfl⟩
    cases h : c.find? a.id with
    | none => exact absurd (List.mem_map_of_mem ha) (find?_eq_none_iff.1 h)
    | some b => rw [List.inj_on_of_nodup_map hids (mem_of_find? h) ha (id_of_find? h)]

end Collection

/-- The references in the neighbor list of an atom. -/
def Atom.refs (a : Atom α) : List (NeighborRef α) :=
  a.neighbors.getD []

theorem Atom.refs_eq_nil {a : Atom α} (h : a.neighbors = none) : a.refs = [] := by
  rw [refs, h, Option.getD_none]

@[simp] theorem Atom.refs_withNeighbors (a : Atom α) (refs : List (NeighborRef α)) :
    (a.withNeighbors refs).refs = refs := by
  simp [Atom.refs, neighbors, withNeighbors]

namespace Collection

variable {c : Collection α} {a b : Atom α}

theorem mem_atoms_of_mem_neighborsOf (h : b ∈ c.neighborsOf a) : b ∈ c.atoms := by
  obtain ⟨ref, -, href⟩ := List.mem_filterMap.1 h
  exact mem_of_find? href

/-- A neighbor list leads to the atoms that are there, in its order. -/
theorem ids_neighborsOf (c : Collection α) (a : Atom α) :
    (c.neighborsOf a).map (·.id) = (a.refs.map (·.id)).filter (· ∈ c.ids) := by
  unfold neighborsOf Atom.refs
  induction a.neighbors.getD [] with
  | nil => rfl
  | cons ref rest ih =>
    rw [List.filterMap_cons, List.map_cons]
    cases h : c.find? ref.id with
    | none =>
      rw [List.filter_cons_of_neg (by simpa using find?_eq_none_iff.1 h)]
      exact ih
    | some b =>
      have hid := id_of_find? h
      have hmem : ref.id ∈ c.ids := hid ▸ List.mem_map_of_mem (mem_of_find? h)
      rw [List.filter_cons_of_pos (by simpa using hmem), ← ih, List.map_cons, hid]

end Collection

/-! ## Consistent references -/

/-- The ids are distinct, and every reference is to another atom; the distance is right if that atom
is there. -/
structure AreConsistent [Scalar α] (norm : Norm α) (atoms : List (Atom α)) : Prop where
  ids : (atoms.map (·.id)).Nodup
  ne : ∀ a ∈ atoms, ∀ ref ∈ a.refs, ref.id ≠ a.id
  distance : ∀ a ∈ atoms, ∀ ref ∈ a.refs, ∀ b ∈ atoms, b.id = ref.id →
    ref.distance = norm.distance a.position b.position

/-- The ids are distinct, and no atom has a neighbor list. -/
structure AreUnlisted (atoms : List (Atom α)) : Prop where
  ids : (atoms.map (·.id)).Nodup
  neighbors : ∀ a ∈ atoms, a.neighbors = none

/-- What is seen of an atom when neighbors are looked up. -/
def Atom.linkView (a : Atom α) : Nat × Vec3 α × Option (List (NeighborRef α)) :=
  (a.id, a.position, a.neighbors)

theorem Atom.linkView_withCoordination (a : Atom α) (n : Nat) :
    (a.withCoordination n).linkView = a.linkView := by
  cases h : a.surroundings <;> simp [linkView, withCoordination, neighbors, h]

/-- The ids that neighbor lists refer to. -/
def citedIds (atoms : List (Atom α)) : List Nat :=
  atoms.flatMap fun a => a.refs.map (·.id)

/-- An atom without a neighbor list, whose id is neither that of an atom nor referred to. -/
structure IsNewTo (atoms : List (Atom α)) (a : Atom α) : Prop where
  neighbors : a.neighbors = none
  id_notMem : a.id ∉ atoms.map (·.id)
  id_uncited : a.id ∉ citedIds atoms

/-- One after another, each atom is new, also to those of the list that come before it. -/
def AreNewTo (atoms : List (Atom α)) : List (Atom α) → Prop
  | [] => True
  | a :: rest => IsNewTo atoms a ∧ AreNewTo (atoms ++ [a]) rest

namespace AreConsistent

variable [Scalar α] {norm : Norm α} {atoms atoms' : List (Atom α)}

theorem of_unlisted (h : AreUnlisted atoms) : AreConsistent norm atoms where
  ids := h.ids
  ne a ha ref href := by
    rw [Atom.refs_eq_nil (h.neighbors a ha)] at href
    cases href
  distance a ha ref href := by
    rw [Atom.refs_eq_nil (h.neighbors a ha)] at href
    cases href

/-- Atoms may be put into another order and left out. -/
theorem of_subset (h : AreConsistent norm atoms) (hids : (atoms'.map (·.id)).Nodup)
    (hsub : ∀ a ∈ atoms', a ∈ atoms) : AreConsistent norm atoms' where
  ids := hids
  ne a ha := h.ne a (hsub a ha)
  distance a ha ref href b hb := h.distance a (hsub a ha) ref href b (hsub b hb)

/-- What else an atom carries does not matter. -/
theorem of_views (h : AreConsistent norm atoms)
    (hviews : atoms'.map Atom.linkView = atoms.map Atom.linkView) : AreConsistent norm atoms' := by
  have hview : ∀ a' ∈ atoms', ∃ a ∈ atoms, a.id = a'.id ∧ a.position = a'.position ∧
      a.refs = a'.refs := by
    intro a' ha'
    have hmem := List.mem_map_of_mem (f := Atom.linkView) ha'
    rw [hviews] at hmem
    obtain ⟨a, ha, heq⟩ := List.mem_map.1 hmem
    simp only [Atom.linkView, Prod.mk.injEq] at heq
    exact ⟨a, ha, heq.1, heq.2.1, by rw [Atom.refs, heq.2.2, Atom.refs]⟩
  refine ⟨?_, ?_, ?_⟩
  · have hids := congrArg (List.map Prod.fst) hviews
    simp only [List.map_map] at hids
    have hids' : atoms'.map (·.id) = atoms.map (·.id) := hids
    rw [hids']
    exact h.ids
  · intro a' ha' ref href
    obtain ⟨a, ha, hid, -, hrefs⟩ := hview a' ha'
    rw [← hid]
    exact h.ne a ha ref (hrefs ▸ href)
  · intro a' ha' ref href b' hb' hb'id
    obtain ⟨a, ha, -, hposition, hrefs⟩ := hview a' ha'
    obtain ⟨b, hb, hbid, hbposition, -⟩ := hview b' hb'
    rw [← hposition, ← hbposition]
    exact h.distance a ha ref (hrefs ▸ href) b hb (hbid.trans hb'id)

/-- An atom that nobody refers to may be added. -/
theorem append_one {a : Atom α} (h : AreConsistent norm atoms) (ha : IsNewTo atoms a) :
    AreConsistent norm (atoms ++ [a]) := by
  have hrefs : ∀ a' ∈ atoms ++ [a], ∀ ref ∈ a'.refs, a' ∈ atoms ∧ ref.id ≠ a.id := by
    intro a' ha' ref href
    rcases List.mem_append.1 ha' with ha' | ha'
    · refine ⟨ha', fun hid => ha.id_uncited ?_⟩
      exact List.mem_flatMap.2 ⟨a', ha', hid ▸ List.mem_map_of_mem href⟩
    · rw [List.mem_singleton.1 ha', Atom.refs_eq_nil ha.neighbors] at href
      cases href
  refine ⟨?_, ?_, ?_⟩
  · rw [List.map_append, List.nodup_append]
    refine ⟨h.ids, by simp, ?_⟩
    intro id hid id' hid' heq
    rw [heq, List.mem_singleton.1 hid'] at hid
    exact ha.id_notMem hid
  · intro a' ha' ref href
    exact h.ne a' (hrefs a' ha' ref href).1 ref href
  · intro a' ha' ref href b hb hbid
    obtain ⟨ha', hne⟩ := hrefs a' ha' ref href
    rcases List.mem_append.1 hb with hb | hb
    · exact h.distance a' ha' ref href b hb hbid
    · rw [List.mem_singleton.1 hb] at hbid
      exact absurd hbid.symm hne

theorem append {new : List (Atom α)} (h : AreConsistent norm atoms) (hnew : AreNewTo atoms new) :
    AreConsistent norm (atoms ++ new) := by
  induction new generalizing atoms with
  | nil => rwa [List.append_nil]
  | cons a rest ih =>
    rw [List.append_cons]
    exact ih (h.append_one hnew.1) hnew.2

end AreConsistent

namespace Collection

variable [Scalar α] {c : Collection α} {norm : Norm α} {n : Nat} {cutoff : Option α}

/-! ## Lists that are found -/

omit [Scalar α] in
theorem exists_hit_of_mem_refsOf {ids : Array Nat} {row : List (Hit α)} {ref : NeighborRef α}
    (h : ref ∈ refsOf ids row) :
    ∃ hit ∈ row, ids[hit.index]? = some ref.id ∧ ref.distance = hit.distance := by
  obtain ⟨hit, hmem, href⟩ := List.mem_filterMap.1 h
  obtain ⟨id, hid, rfl⟩ := Option.map_eq_some_iff.1 href
  exact ⟨hit, hmem, hid, rfl⟩

/-- An atom with a new list has the place of an atom before. -/
theorem exists_of_mem_storeNeighbors {rows : List (List (Hit α))} {a' : Atom α}
    (h : a' ∈ (c.storeNeighbors rows cutoff).atoms) :
    ∃ (i : Nat) (a : Atom α) (row : List (Hit α)), c.atoms[i]? = some a ∧ rows[i]? = some row ∧
      a'.id = a.id ∧ a'.position = a.position ∧
      ∀ ref ∈ a'.refs, ∃ hit ∈ row, c.ids[hit.index]? = some ref.id ∧
        ref.distance = hit.distance := by
  obtain ⟨i, hi⟩ := List.mem_iff_getElem?.1 h
  obtain ⟨a, row, ha, hrow, rfl⟩ := List.getElem?_zipWith_eq_some.1 hi
  refine ⟨i, a, row, ha, hrow, rfl, rfl, ?_⟩
  intro ref href
  rw [Atom.refs_withNeighbors] at href
  obtain ⟨hit, hmem, hid, hdistance⟩ := exists_hit_of_mem_refsOf href
  exact ⟨hit, (List.mem_filter.1 hmem).1, by simpa using hid, hdistance⟩

/-- New neighbor lists refer to other atoms, with their distances. -/
theorem areConsistent_storeNeighbors {rows : List (List (Hit α))} (hids : c.ids.Nodup)
    (hrows : c.queryRows n cutoff = .ok rows) :
    AreConsistent c.params.norm (c.storeNeighbors rows cutoff).atoms := by
  obtain ⟨hlength, hspec⟩ := queryRows_spec hrows
  have hidAt : ∀ (i : Nat) (a : Atom α), c.atoms[i]? = some a → c.ids[i]? = some a.id := by
    intro i a ha
    rw [Collection.ids, List.getElem?_map, ha]
    rfl
  have hpositionAt : ∀ (i : Nat) (a : Atom α), c.atoms[i]? = some a →
      c.positions[i]? = some a.position := by
    intro i a ha
    rw [positions, List.getElem?_map, ha]
    rfl
  have hplace : ∀ {i j : Nat} {id : Nat}, c.ids[i]? = some id → c.ids[j]? = some id → i = j := by
    intro i j id hi hj
    obtain ⟨hi', -⟩ := List.getElem?_eq_some_iff.1 hi
    exact (List.getElem?_inj hi' hids).1 (hi.trans hj.symm)
  refine ⟨?_, ?_, ?_⟩
  · have hsame : (c.storeNeighbors rows cutoff).atoms.map (·.id) = c.ids := by
      refine map_zipWith_of_forall (fun a row => ?_) hlength
      rfl
    rw [hsame]
    exact hids
  · intro a' ha' ref href hself
    obtain ⟨i, a, row, ha, hrow, hid, -, hrefs⟩ := exists_of_mem_storeNeighbors ha'
    obtain ⟨hit, hmem, hcited, -⟩ := hrefs ref href
    rw [hself, hid] at hcited
    exact (hspec i row hrow hit hmem).1 (hplace hcited (hidAt i a ha))
  · intro a' ha' ref href b' hb' hb'id
    obtain ⟨i, a, row, ha, hrow, -, hposition, hrefs⟩ := exists_of_mem_storeNeighbors ha'
    obtain ⟨hit, hmem, hcited, hdistance⟩ := hrefs ref href
    obtain ⟨j, b, -, hb, -, hbid, hbposition, -⟩ := exists_of_mem_storeNeighbors hb'
    -- the atom with the id has the number of the hit
    have hj : hit.index = j := by
      refine hplace hcited ?_
      rw [hidAt j b hb, ← hbid, hb'id]
    obtain ⟨-, p, q, hp, hq, hfar⟩ := hspec i row hrow hit hmem
    rw [hpositionAt i a ha, Option.some.injEq] at hp
    rw [hj, hpositionAt j b hb, Option.some.injEq] at hq
    rw [hdistance, hfar, hposition, hbposition, hp, hq]

/-! ## Operations -/

/-- Atoms that are added are new, and a free edit leaves distinct ids and no neighbor list. -/
def Operation.IsAdmissible (c : Collection α) (r : Revision) : Operation α → Prop
  | append a => IsNewTo c.atoms a
  | extend as => AreNewTo c.atoms as
  | modifyEach f => AreUnlisted (c.modifyEach f r).1.atoms
  | modifyAt i f => i < c.size → AreUnlisted (c.modifyAt i f r).1.atoms
  | _ => True

/-- The norm that the neighbor lists are found in: that of the collection when new lists are found,
and that of the old lists otherwise. -/
def Operation.listNorm (c : Collection α) (norm : Norm α) : Operation α → Norm α
  | findNeighbors n cutoff => if (c.findNeighbors n cutoff).isOk then c.params.norm else norm
  | updateNeighbors => if c.updateNeighbors.isOk then c.params.norm else norm
  | _ => norm

omit [Scalar α] in
theorem ids_assignIds (start : Nat) (c : Collection α) :
    (c.assignIds start).ids = List.range' start c.size := by
  refine List.ext_getElem (by simp [ids, assignIds, size]) ?_
  intro i _ _
  simp [ids, assignIds]

omit [Scalar α] in
theorem areUnlisted_assignIds (start : Nat) (c : Collection α) :
    AreUnlisted (c.assignIds start).atoms := by
  refine ⟨?_, ?_⟩
  · have hids : ((c.assignIds start).atoms.map (·.id)) = List.range' start c.size :=
      ids_assignIds start c
    rw [hids]
    exact List.nodup_range'
  · intro a ha
    obtain ⟨i, hi, rfl⟩ := List.mem_mapIdx.1 ha
    exact Atom.neighbors_forgetNeighbors _

omit [Scalar α] in
/-- An edit of all atoms that keeps ids and attaches nothing leaves no lists. -/
theorem areUnlisted_modifyAll {f : Atom α → Atom α} (hids : c.ids.Nodup)
    (hid : ∀ a, (f a).id = a.id) (hneighbors : ∀ a, (f a).neighbors = a.neighbors) (r : Revision) :
    AreUnlisted (c.modifyAll f r).1.atoms := by
  have hatoms : (c.modifyAll f r).1.atoms = c.atoms.map fun a => f a.forgetNeighbors := rfl
  rw [hatoms]
  refine ⟨?_, ?_⟩
  · rw [List.map_map]
    have hsame : c.atoms.map ((·.id) ∘ fun a => f a.forgetNeighbors) = c.ids :=
      List.map_congr_left fun a _ => hid a.forgetNeighbors
    rw [hsame]
    exact hids
  · intro a' ha'
    obtain ⟨a, -, rfl⟩ := List.mem_map.1 ha'
    rw [hneighbors, Atom.neighbors_forgetNeighbors]

theorem areUnlisted_shiftBy (hids : c.ids.Nodup) (t : Vec3 α) (r : Revision) :
    AreUnlisted (c.shiftBy t r).1.atoms := by
  refine areUnlisted_modifyAll hids (fun a => ?_) (fun a => ?_) r
  · rfl
  · rfl

theorem areUnlisted_rotate (hids : c.ids.Nodup) (m : Mat3 α) (pivot : Option (Vec3 α))
    (r : Revision) : AreUnlisted (c.rotate m pivot r).1.atoms := by
  refine areUnlisted_modifyAll hids (fun a => ?_) (fun a => ?_) r
  · rfl
  · rfl

/-- An operation that only marks the atoms keeps references right. -/
theorem areConsistent_of_toOption_getD {ε : Type} {outcome : Except ε (Collection α)}
    (h : AreConsistent norm c.atoms)
    (hviews : ∀ c', outcome = .ok c' → c'.atoms.map Atom.linkView = c.atoms.map Atom.linkView) :
    AreConsistent norm (outcome.toOption.getD c).atoms := by
  cases outcome with
  | ok c' => exact h.of_views (hviews c' rfl)
  | error e => exact h

theorem areConsistent_findCoordination (h : AreConsistent norm c.atoms) :
    AreConsistent norm ((c.findCoordination n cutoff).toOption.getD c).atoms :=
  areConsistent_of_toOption_getD h fun _ hfound =>
    map_findCoordination Atom.linkView_withCoordination hfound

theorem areConsistent_findNeighbors (h : AreConsistent norm c.atoms) :
    AreConsistent (if (c.findNeighbors n cutoff).isOk then c.params.norm else norm)
      ((c.findNeighbors n cutoff).toOption.getD c).atoms := by
  cases hfound : c.findNeighbors n cutoff with
  | error e => exact h
  | ok c' =>
    obtain ⟨rows, hrows, rfl⟩ := exists_rows_of_findNeighbors hfound
    exact areConsistent_storeNeighbors h.ids hrows

/-- Some of the atoms, in their order. -/
theorem areConsistent_keep (h : AreConsistent norm c.atoms) (p : Atom α → Bool) (r : Revision) :
    AreConsistent norm (c.keep p r).1.atoms :=
  h.of_subset (h.ids.sublist (List.filter_sublist.map _)) fun _ ha => (List.mem_filter.1 ha).1

/-- **What one operation preserves.** -/
theorem areConsistent_perform (h : AreConsistent norm c.atoms) {op : Operation α} {r : Revision}
    (hop : op.IsAdmissible c r) :
    AreConsistent (op.listNorm c norm) (op.perform c r).1.atoms := by
  cases op with
  | append a => exact h.append_one hop
  | extend as => exact h.append hop
  | clear => exact .of_unlisted ⟨List.nodup_nil, fun _ ha => absurd ha List.not_mem_nil⟩
  | sort key reverse =>
    have hperm := c.sort_perm key reverse r
    exact h.of_subset ((hperm.map _).nodup_iff.2 h.ids) fun a ha => hperm.mem_iff.1 ha
  | filter ids invert => exact areConsistent_keep h _ r
  | select p supplied =>
    rcases perform_select p supplied c with heq | ⟨test, heq⟩
    · rw [heq]
      exact h
    · rw [heq]
      exact areConsistent_keep h test r
  | modifyEach f => exact .of_unlisted hop
  | modifyAt i f =>
    by_cases hi : i < c.size
    · exact .of_unlisted (hop hi)
    · have hsame : (Operation.modifyAt i f).perform c = pure c := if_neg hi
      rw [hsame]
      exact h
  | shiftBy t => exact .of_unlisted (areUnlisted_shiftBy h.ids t r)
  | center => exact .of_unlisted (areUnlisted_shiftBy h.ids _ r)
  | rotate m pivot => exact .of_unlisted (areUnlisted_rotate h.ids m pivot r)
  | rotateAbout angle axis pivot =>
    rcases perform_rotateAbout angle axis pivot c with heq | ⟨m, heq⟩
    · rw [heq]
      exact h
    · rw [heq]
      exact .of_unlisted (areUnlisted_rotate h.ids m pivot r)
  | rotateAxis angle axis pivot => exact .of_unlisted (areUnlisted_rotate h.ids _ pivot r)
  | rotateEuler roll pitch yaw pivot => exact .of_unlisted (areUnlisted_rotate h.ids _ pivot r)
  | assignIds start => exact .of_unlisted (areUnlisted_assignIds start c)
  | assignTypes => exact h.of_views (map_typedByElement (fun _ _ => rfl) c.atoms)
  | rebuildTypeTable => exact h
  | setNeighborNumber n => exact h
  | setNorm norm => exact h
  | setNeighborCutoff cutoff =>
    refine areConsistent_of_toOption_getD h fun c' hset => ?_
    rw [(atoms_of_setNeighborCutoff hset).1]
  | findCoordination n cutoff => exact areConsistent_findCoordination h
  | findNeighbors n cutoff => exact areConsistent_findNeighbors h
  | updateCoordination => exact areConsistent_findCoordination h
  | updateNeighbors => exact areConsistent_findNeighbors h
  | findPoav1 => exact h.of_views (map_findPoav1 (fun _ _ => rfl) c)

/-- What admissible operations lead to from a collection, whatever revisions are drawn, with the
norm that the neighbor lists are found in. A copy of a collection is the collection itself. -/
inductive IsReached (start : Collection α) : Collection α → Norm α → Prop where
  | start : IsReached start start start.params.norm
  | step {c : Collection α} {norm : Norm α} (op : Operation α) (r : Revision) :
      IsReached start c norm → op.IsAdmissible c r →
        IsReached start (op.perform c r).1 (op.listNorm c norm)

/-- **What a run preserves.** -/
theorem IsReached.areConsistent {start : Collection α} (h : IsReached start c norm)
    (hstart : AreUnlisted start.atoms) : AreConsistent norm c.atoms := by
  induction h with
  | start => exact .of_unlisted hstart
  | step op r _ hop ih => exact areConsistent_perform ih hop

/-- **References are never wrong.** If the atom that a reference is to is there, it is found, it is
another atom, and it is as far away as the reference says. References to atoms that are not there
are skipped. -/
theorem reference_resolves {start : Collection α} (hstart : AreUnlisted start.atoms)
    (h : IsReached start c norm) {a : Atom α} (ha : a ∈ c.atoms) :
    (∀ ref ∈ a.refs, ∀ b ∈ c.atoms, b.id = ref.id →
      c.find? ref.id = some b ∧ b.id ≠ a.id ∧
        ref.distance = norm.distance a.position b.position) ∧
    (∀ ref ∈ a.refs, ref.id ∉ c.ids → c.find? ref.id = none) ∧
    (∀ b ∈ c.neighborsOf a, b ∈ c.atoms) ∧
    (c.neighborsOf a).map (·.id) = (a.refs.map (·.id)).filter (· ∈ c.ids) := by
  have hconsistent := h.areConsistent hstart
  refine ⟨?_, ?_, fun b hb => mem_atoms_of_mem_neighborsOf hb, ids_neighborsOf c a⟩
  · intro ref href b hb hid
    refine ⟨(find?_eq_some_iff hconsistent.ids).2 ⟨hb, hid⟩, ?_, ?_⟩
    · rw [hid]
      exact hconsistent.ne a ha ref href
    · exact hconsistent.distance a ha ref href b hb hid
  · intro ref _ habsent
    exact find?_eq_none_iff.2 habsent

/-- Three atoms in a row, the third farther away. -/
def spacedRow : Collection Double :=
  ⟨[{ Atom.placed "C" ⟨0, 0, 0⟩ with id := 1 }, { Atom.placed "C" ⟨1, 0, 0⟩ with id := 2 },
    { Atom.placed "C" ⟨3.0, 0, 0⟩ with id := 3 }], {}, none, 0⟩

/-- Their neighbors. -/
def listedRow : Collection Double :=
  spacedRow.storeNeighbors
    ((SpatialIndex.mk spacedRow.positions .euclidean 0).closest 2 none) none

theorem findNeighbors_spacedRow : spacedRow.findNeighbors 2 none = .ok listedRow :=
  findNeighbors_eq_closest (by rfl) (by decide +kernel) 2

/-- The first two of them. -/
def shortenedRow : Collection Double :=
  (listedRow.filter [3] true 1).1

theorem isReached_shortenedRow : IsReached spacedRow shortenedRow .euclidean := by
  have hstart : IsReached spacedRow spacedRow spacedRow.params.norm := .start
  have h := hstart.step (.findNeighbors 2 none) 0 trivial
  simp only [Operation.perform, Operation.listNorm, findNeighbors_spacedRow] at h
  exact .step (.filter [3] true) 1 h trivial

theorem reference_resolves_shortened :
    ∃ a ∈ shortenedRow.atoms, ∃ ref ∈ a.refs, ∃ b ∈ shortenedRow.atoms,
      shortenedRow.find? ref.id = some b ∧ b.id ≠ a.id ∧
        ref.distance = Norm.euclidean.distance a.position b.position ∧
        a.refs.map (·.id) = [2, 3] ∧ (shortenedRow.neighborsOf a).map (·.id) = [2] := by
  have hviews : shortenedRow.atoms.map (fun a => (a.id, a.refs.map (·.id))) =
      [(1, [2, 3]), (2, [1, 3])] := by
    decide +kernel
  obtain ⟨a, rest, hatoms, ha, hrest⟩ := List.map_eq_cons_iff.1 hviews
  obtain ⟨b, _, hrest, hb, -⟩ := List.map_eq_cons_iff.1 hrest
  rw [Prod.mk.injEq] at ha hb
  obtain ⟨ref, refs, hrefs, hrefId, -⟩ := List.map_eq_cons_iff.1 ha.2
  have hamem : a ∈ shortenedRow.atoms := by simp [hatoms]
  have hbmem : b ∈ shortenedRow.atoms := by simp [hatoms, hrest]
  have href : ref ∈ a.refs := by simp [hrefs]
  obtain ⟨hresolves, -, -, hneighbors⟩ :=
    reference_resolves ⟨by decide, by decide⟩ isReached_shortenedRow hamem
  obtain ⟨hfind, hne, hdistance⟩ := hresolves ref href b hbmem (hb.1.trans hrefId.symm)
  refine ⟨a, hamem, ref, href, b, hbmem, hfind, hne, hdistance, ha.2, ?_⟩
  rw [hneighbors, ha.2]
  decide +kernel
end Collection

end Honeycomb
