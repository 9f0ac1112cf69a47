import Honeycomb.Proofs.Collection.References

/-!
# Pi-orbital axes and the neighbor lists they come from

* `axisToward` — the axis of an atom with bonds to three points; `Collection.poav1Of_eq` — the axis
  that the neighbor list of an atom gives depends on where its references lead.
* `Collection.HasCurrentAxes` — every axis that is stored is the one that the neighbor list gives
  now.
* `Collection.HasCurrentAxes.of_perm`, `Collection.hasCurrentAxes_findPoav1`,
  `Collection.hasCurrentAxes_storeNeighbors_iff` — what reordering, finding axes and finding lists
  do to this.
* `Collection.Operation.IsUpkeep` — atoms are neither added nor removed nor edited one by one.
  `Collection.Operation.KeepsAxes` — lists that are found give the axes that are stored.

Principal result: `Collection.axes_current_iff_lists_keep` — axes are current at every moment of a
run just when all lists that are found in it keep them. `Collection.exists_outdated_axis` — there
are lists that do not.
-/

set_option autoImplicit false

namespace Honeycomb

variable {α : Type} [Scalar α]

/-! ## Axes -/

/-- The axis of an atom at `center` with bonds to three points; none for more or fewer points. -/
def axisToward (center : Vec3 α) : List (Vec3 α) → Option (Poav α)
  | [x, y, z] => Poav.equalAngles? ⟨x - center, y - center, z - center⟩
  | _ => none

theorem Poav.kind_of_make? {kind : PoavKind} {axis : Vec3 α} {bonds : Bonds α} {p : Poav α}
    (h : Poav.make? kind axis bonds = some p) : p.kind = kind := by
  unfold Poav.make? at h
  simp only [Option.bind_eq_bind, Option.bind_eq_some_iff] at h
  obtain ⟨_, _, _, _, _, _, _, _, h⟩ := h
  obtain rfl := Option.some.inj h
  rfl

/-- An axis of equal angles is stored under its own kind. -/
theorem Poav.kind_of_equalAngles? {bonds : Bonds α} {p : Poav α}
    (h : Poav.equalAngles? bonds = some p) : p.kind = .poav1 := by
  unfold Poav.equalAngles? at h
  simp only [Option.bind_eq_bind, Option.bind_eq_some_iff] at h
  obtain ⟨_, _, _, _, _, _, _, _, h⟩ := h
  exact kind_of_make? h

theorem kind_of_axisToward {center : Vec3 α} {points : List (Vec3 α)} {p : Poav α}
    (h : axisToward center points = some p) : p.kind = .poav1 := by
  unfold axisToward at h
  split at h
  · exact Poav.kind_of_equalAngles? h
  · cases h

omit [Scalar α] in
theorem Atom.poavOf_withPoav (a : Atom α) (p : Poav α) : (a.withPoav p).poavOf p.kind = some p := by
  simp [withPoav, poavOf, PoavSlots.get_put]

/-- What is seen of an atom when axes are looked up. -/
def Atom.axisView (a : Atom α) :
    Nat × Vec3 α × Option (List (NeighborRef α)) × Option (Poav α) :=
  (a.id, a.position, a.neighbors, a.poavOf .poav1)

omit [Scalar α] in
theorem Atom.axisView_withCoordination (a : Atom α) (n : Nat) :
    (a.withCoordination n).axisView = a.axisView := by
  cases h : a.surroundings <;> simp [axisView, withCoordination, neighbors, poavOf, h]

namespace Collection

variable {c c' : Collection α} {a b : Atom α} {id : Nat}

/-- Where the atom with an id is. -/
def place? (c : Collection α) (id : Nat) : Option (Vec3 α) :=
  (c.find? id).map (·.position)

/-- The axis depends on the points that the references lead to. -/
theorem poav1Of_eq (c : Collection α) (a : Atom α) :
    c.poav1Of a = axisToward a.position (a.refs.filterMap (c.place? ·.id)) := by
  have hpoints : a.refs.filterMap (c.place? ·.id) = (c.neighborsOf a).map (·.position) := by
    unfold neighborsOf Atom.refs
    rw [List.map_filterMap]
    rfl
  rw [hpoints]
  unfold poav1Of
  match c.neighborsOf a with
  | [] | [_] | [_, _] | [_, _, _] | _ :: _ :: _ :: _ :: _ => rfl

/-- An axis is found when the neighbor list leads to exactly three atoms. -/
theorem poav1Of_eq_some_iff {p : Poav α} : c.poav1Of a = some p ↔
    ∃ x y z, c.neighborsOf a = [x, y, z] ∧ Poav.equalAngles?
      ⟨x.position - a.position, y.position - a.position, z.position - a.position⟩ = some p := by
  unfold poav1Of
  match h : c.neighborsOf a with
  | [] | [_] | [_, _] | _ :: _ :: _ :: _ :: _ => simp
  | [x, y, z] => simp

omit [Scalar α] in
/-- With distinct ids, an atom is where its id says. -/
theorem place?_eq_some_iff (hids : c.ids.Nodup) {x : Vec3 α} :
    c.place? id = some x ↔ ∃ a ∈ c.atoms, a.id = id ∧ a.position = x := by
  unfold place?
  rw [Option.map_eq_some_iff]
  constructor
  · rintro ⟨a, ha, hx⟩
    obtain ⟨hmem, hid⟩ := (find?_eq_some_iff hids).1 ha
    exact ⟨a, hmem, hid, hx⟩
  · rintro ⟨a, hmem, hid, hx⟩
    exact ⟨a, (find?_eq_some_iff hids).2 ⟨hmem, hid⟩, hx⟩

omit [Scalar α] in
/-- Atoms may be put into another order, and what else they carry does not matter. -/
theorem place?_of_perm (hids : c.ids.Nodup)
    (hviews : (c'.atoms.map fun a => (a.id, a.position)).Perm
      (c.atoms.map fun a => (a.id, a.position))) : c'.place? = c.place? := by
  have hids' : c'.ids.Nodup := by
    have hperm := hviews.map Prod.fst
    rw [List.map_map, List.map_map] at hperm
    exact hperm.nodup_iff.2 hids
  have hplaces : ∀ (l : List (Atom α)) (id : Nat) (x : Vec3 α),
      (∃ a ∈ l, a.id = id ∧ a.position = x) ↔ (id, x) ∈ l.map fun a => (a.id, a.position) := by
    intro l id x
    simp [List.mem_map]
  funext id
  apply Option.ext
  intro x
  rw [place?_eq_some_iff hids', place?_eq_some_iff hids, hplaces, hplaces, hviews.mem_iff]

/-! ## Current axes -/

/-- Every atom that has an axis has a neighbor list that leads to exactly three atoms, and the bonds
to them, in the order of the list, give the axis. -/
def HasCurrentAxes (c : Collection α) : Prop :=
  ∀ a ∈ c.atoms, ∀ p, a.poavOf .poav1 = some p →
    ∃ x y z, c.neighborsOf a = [x, y, z] ∧ Poav.equalAngles?
      ⟨x.position - a.position, y.position - a.position, z.position - a.position⟩ = some p

theorem hasCurrentAxes_iff : c.HasCurrentAxes ↔
    ∀ a ∈ c.atoms, ∀ p, a.poavOf .poav1 = some p →
      axisToward a.position (a.refs.filterMap (c.place? ·.id)) = some p := by
  simp only [HasCurrentAxes, ← poav1Of_eq_some_iff, poav1Of_eq]

theorem hasCurrentAxes_of_none (h : ∀ a ∈ c.atoms, a.poavOf .poav1 = none) :
    c.HasCurrentAxes := by
  intro a ha p hp
  rw [h a ha] at hp
  cases hp

/-- Atoms may be put into another order, and what else they carry does not matter. -/
theorem HasCurrentAxes.of_perm (h : c.HasCurrentAxes) (hids : c.ids.Nodup)
    (hviews : (c'.atoms.map Atom.axisView).Perm (c.atoms.map Atom.axisView)) :
    c'.HasCurrentAxes := by
  have hplaces : c'.place? = c.place? := by
    have hperm := hviews.map fun v => (v.1, v.2.1)
    rw [List.map_map, List.map_map] at hperm
    exact place?_of_perm hids hperm
  rw [hasCurrentAxes_iff] at h ⊢
  intro a' ha' p hp
  obtain ⟨a, ha, hview⟩ := List.mem_map.1 (hviews.mem_iff.1 (List.mem_map_of_mem ha'))
  simp only [Atom.axisView, Prod.mk.injEq] at hview
  obtain ⟨-, hposition, hneighbors, hpoav⟩ := hview
  have hrefs : a'.refs = a.refs := by
    rw [Atom.refs, Atom.refs, hneighbors]
  rw [hplaces, ← hposition, hrefs]
  exact h a ha p (hpoav.trans hp)

omit [Scalar α] in
/-- An edit that stores no axis leaves none. -/
theorem poavOf_of_mem_modifyAll {f : Atom α → Atom α}
    (hf : ∀ a, (f a).poavOf .poav1 = a.poavOf .poav1) {r : Revision}
    (ha : a ∈ (c.modifyAll f r).1.atoms) : a.poavOf .poav1 = none := by
  obtain ⟨b, -, rfl⟩ := List.mem_map.1 ha
  rw [hf, Atom.poavOf_forgetNeighbors]

theorem hasCurrentAxes_shiftBy (t : Vec3 α) (r : Revision) : (c.shiftBy t r).1.HasCurrentAxes := by
  refine hasCurrentAxes_of_none fun a ha => poavOf_of_mem_modifyAll (fun b => ?_) ha
  rfl

theorem hasCurrentAxes_rotate (m : Mat3 α) (pivot : Option (Vec3 α)) (r : Revision) :
    (c.rotate m pivot r).1.HasCurrentAxes := by
  refine hasCurrentAxes_of_none fun a ha => poavOf_of_mem_modifyAll (fun b => ?_) ha
  rfl

theorem hasCurrentAxes_assignIds (start : Nat) (c : Collection α) :
    (c.assignIds start).HasCurrentAxes := by
  refine hasCurrentAxes_of_none fun a ha => ?_
  obtain ⟨i, hi, rfl⟩ := List.mem_mapIdx.1 ha
  exact Atom.poavOf_forgetNeighbors _ _

/-- A refused operation changes nothing. -/
theorem hasCurrentAxes_toOption_getD {ε : Type} {outcome : Except ε (Collection α)}
    (h : c.HasCurrentAxes) (hids : c.ids.Nodup)
    (hviews : ∀ c', outcome = .ok c' → c'.atoms.map Atom.axisView = c.atoms.map Atom.axisView) :
    (outcome.toOption.getD c).HasCurrentAxes := by
  cases outcome with
  | ok c' => exact h.of_perm hids (.of_eq (hviews c' rfl))
  | error e => exact h

/-- Axes that are found are current, and so are those of the atoms that none is found for. -/
theorem hasCurrentAxes_findPoav1 (h : c.HasCurrentAxes) (hids : c.ids.Nodup) :
    c.findPoav1.HasCurrentAxes := by
  have hplaces : c.findPoav1.place? = c.place? :=
    place?_of_perm hids (.of_eq (map_findPoav1 (fun _ _ => rfl) c))
  rw [hasCurrentAxes_iff] at h ⊢
  intro a' ha' p hp
  obtain ⟨a, ha, rfl⟩ := List.mem_map.1 ha'
  rw [hplaces]
  cases hfound : c.poav1Of a with
  | none =>
    simp only [hfound] at hp ⊢
    exact h a ha p hp
  | some q =>
    simp only [hfound] at hp ⊢
    rw [poav1Of_eq] at hfound
    have hstored := a.poavOf_withPoav q
    rw [kind_of_axisToward hfound, hp] at hstored
    rw [hstored]
    exact hfound

/-! ## Lists that are found -/

variable {n : Nat} {cutoff : Option α}

/-- Where the hits of a row below the cutoff are. -/
def pointsOf (c : Collection α) (cutoff : Option α) (row : List (Hit α)) : List (Vec3 α) :=
  (row.filter fun hit => isBelow cutoff hit.distance).filterMap fun hit => c.positions[hit.index]?

omit [Scalar α] in
/-- References to the atoms with the numbers of hits lead to the points of the hits. -/
theorem filterMap_place?_refsOf (hids : c.ids.Nodup) (hits : List (Hit α)) :
    (refsOf c.ids.toArray hits).filterMap (c.place? ·.id) =
      hits.filterMap fun hit => c.positions[hit.index]? := by
  have hplace : ∀ i : Nat, (c.ids[i]?).bind c.place? = c.positions[i]? := by
    intro i
    rw [ids, positions, List.getElem?_map, List.getElem?_map]
    cases ha : c.atoms[i]? with
    | none => rfl
    | some a => exact (place?_eq_some_iff hids).2 ⟨a, List.mem_of_getElem? ha, rfl, rfl⟩
  unfold refsOf
  rw [List.filterMap_filterMap]
  refine List.filterMap_congr fun hit _ => ?_
  rw [List.getElem?_toArray, ← hplace]
  cases c.ids[hit.index]? <;> rfl

/-- **New lists keep the axes just when they lead each atom that has an axis to three points that
give this axis.** -/
theorem hasCurrentAxes_storeNeighbors_iff (hids : c.ids.Nodup) {rows : List (List (Hit α))}
    (hlength : rows.length = c.atoms.length) (cutoff : Option α) :
    (c.storeNeighbors rows cutoff).HasCurrentAxes ↔
      ∀ (i : Nat) (a : Atom α) (row : List (Hit α)), c.atoms[i]? = some a → rows[i]? = some row →
        ∀ p, a.poavOf .poav1 = some p →
          axisToward a.position (c.pointsOf cutoff row) = some p := by
  have hplaces : (c.storeNeighbors rows cutoff).place? = c.place? := by
    refine place?_of_perm hids (.of_eq (map_zipWith_of_forall (fun a row => ?_) hlength))
    rfl
  have hpoints : ∀ row : List (Hit α), (refsOf c.ids.toArray
      (row.filter fun hit => isBelow cutoff hit.distance)).filterMap (c.place? ·.id) =
        c.pointsOf cutoff row := by
    intro row
    exact filterMap_place?_refsOf hids _
  rw [hasCurrentAxes_iff, hplaces]
  constructor
  · intro h i a row ha hrow p hp
    have hmem : a.withNeighbors (refsOf c.ids.toArray
        (row.filter fun hit => isBelow cutoff hit.distance)) ∈
          (c.storeNeighbors rows cutoff).atoms :=
      List.mem_of_getElem? (List.getElem?_zipWith_eq_some.2 ⟨a, row, ha, hrow, rfl⟩)
    have haxis := h _ hmem p hp
    rw [Atom.refs_withNeighbors, hpoints] at haxis
    exact haxis
  · intro h a' ha' p hp
    obtain ⟨i, hi⟩ := List.mem_iff_getElem?.1 ha'
    obtain ⟨a, row, ha, hrow, rfl⟩ := List.getElem?_zipWith_eq_some.1 hi
    rw [Atom.refs_withNeighbors, hpoints]
    exact h i a row ha hrow p hp

/-! ## Operations -/

/-- Operations that neither add nor remove atoms nor edit them one by one. -/
def Operation.IsUpkeep : Operation α → Prop
  | append _ | extend _ | clear | filter _ _ | select _ _ | modifyEach _ | modifyAt _ _ => False
  | _ => True

/-- The lists that a search finds, if it is not refused, lead each atom that has an axis to three
points that give this axis. -/
def FindsAxes (c : Collection α) (n : Nat) (cutoff : Option α) : Prop :=
  ∀ rows, c.queryRows n cutoff = .ok rows →
    ∀ (i : Nat) (a : Atom α) (row : List (Hit α)), c.atoms[i]? = some a → rows[i]? = some row →
      ∀ p, a.poavOf .poav1 = some p → axisToward a.position (c.pointsOf cutoff row) = some p

/-- New neighbor lists, if some are found, keep the axes. Nothing else puts an axis at risk. -/
def Operation.KeepsAxes (c : Collection α) : Operation α → Prop
  | findNeighbors n cutoff => c.FindsAxes n cutoff
  | updateNeighbors => c.FindsAxes c.params.number c.params.cutoff
  | _ => True

theorem hasCurrentAxes_findNeighbors_iff (h : c.HasCurrentAxes) (hids : c.ids.Nodup) :
    ((c.findNeighbors n cutoff).toOption.getD c).HasCurrentAxes ↔ c.FindsAxes n cutoff := by
  unfold findNeighbors FindsAxes
  cases hrows : c.queryRows n cutoff with
  | error e => exact iff_of_true h fun rows hok => nomatch hok
  | ok rows =>
    have hfound := hasCurrentAxes_storeNeighbors_iff hids (queryRows_spec hrows).1 cutoff
    refine hfound.trans ⟨fun h rows' hok => ?_, fun h => h rows rfl⟩
    obtain rfl := Except.ok.inj hok
    exact h

/-- **What one operation does to current axes**: only new neighbor lists can make one wrong. -/
theorem hasCurrentAxes_perform_iff (h : c.HasCurrentAxes) (hids : c.ids.Nodup) {op : Operation α}
    (hop : op.IsUpkeep) (r : Revision) :
    (op.perform c r).1.HasCurrentAxes ↔ op.KeepsAxes c := by
  cases op with
  | append a | extend as | clear | filter ids invert | select p supplied | modifyEach f
  | modifyAt i f => exact hop.elim
  | sort key reverse =>
    exact iff_of_true (h.of_perm hids ((c.sort_perm key reverse r).map _)) trivial
  | shiftBy t => exact iff_of_true (hasCurrentAxes_shiftBy t r) trivial
  | center => exact iff_of_true (hasCurrentAxes_shiftBy _ r) trivial
  | rotate m pivot => exact iff_of_true (hasCurrentAxes_rotate m pivot r) trivial
  | rotateAbout angle axis pivot =>
    rcases perform_rotateAbout angle axis pivot c with heq | ⟨m, heq⟩
    · exact iff_of_true (heq ▸ h) trivial
    · exact iff_of_true (heq ▸ hasCurrentAxes_rotate m pivot r) trivial
  | rotateAxis angle axis pivot => exact iff_of_true (hasCurrentAxes_rotate _ pivot r) trivial
  | rotateEuler roll pitch yaw pivot =>
    exact iff_of_true (hasCurrentAxes_rotate _ pivot r) trivial
  | assignIds start => exact iff_of_true (hasCurrentAxes_assignIds start c) trivial
  | assignTypes =>
    have hviews : (typedByElement c.atoms).map Atom.axisView = c.atoms.map Atom.axisView :=
      map_typedByElement (fun _ _ => rfl) c.atoms
    exact iff_of_true (h.of_perm hids (.of_eq hviews)) trivial
  | rebuildTypeTable => exact iff_of_true (h.of_perm hids (.refl _)) trivial
  | setNeighborNumber n => exact iff_of_true (h.of_perm hids (.refl _)) trivial
  | setNorm norm => exact iff_of_true (h.of_perm hids (.refl _)) trivial
  | setNeighborCutoff cutoff =>
    refine iff_of_true (hasCurrentAxes_toOption_getD h hids fun c' hset => ?_) trivial
    rw [(atoms_of_setNeighborCutoff hset).1]
  | findCoordination n cutoff =>
    exact iff_of_true (hasCurrentAxes_toOption_getD h hids fun c' hfound =>
      map_findCoordination Atom.axisView_withCoordination hfound) trivial
  | updateCoordination =>
    exact iff_of_true (hasCurrentAxes_toOption_getD h hids fun c' hfound =>
      map_findCoordination Atom.axisView_withCoordination hfound) trivial
  | findNeighbors n cutoff => exact hasCurrentAxes_findNeighbors_iff h hids
  | updateNeighbors => exact hasCurrentAxes_findNeighbors_iff h hids
  | findPoav1 => exact iff_of_true (hasCurrentAxes_findPoav1 h hids) trivial

/-! ## Runs -/

omit [Scalar α] in
/-- Upkeep brings no atoms and no free edits, so nothing is asked of it. -/
theorem Operation.IsUpkeep.isAdmissible {op : Operation α} (h : op.IsUpkeep) (c : Collection α)
    (r : Revision) : op.IsAdmissible c r := by
  cases op with
  | append | extend | modifyEach | modifyAt => exact h.elim
  | _ => exact trivial

/-- Upkeep keeps references right, and so it keeps ids distinct. -/
theorem exists_areConsistent_performAll {norm : Norm α} {r : Revision} {ops : List (Operation α)}
    (h : AreConsistent norm c.atoms) (hops : ∀ op ∈ ops, op.IsUpkeep) :
    ∃ norm', AreConsistent norm' (c.performAll r ops).1.atoms := by
  induction ops generalizing c norm r with
  | nil => exact ⟨norm, h⟩
  | cons op rest ih =>
    have hadmissible := (hops op List.mem_cons_self).isAdmissible c r
    exact ih (areConsistent_perform h hadmissible)
      fun op' hop' => hops op' (List.mem_cons_of_mem op hop')

/-- **Axes are current at every moment of a run just when all lists that are found in it keep
them.** The run begins with distinct ids, no neighbor lists and no axes, and consists of upkeep. -/
theorem axes_current_iff_lists_keep {start : Collection α} (hstart : AreUnlisted start.atoms)
    (haxes : ∀ a ∈ start.atoms, a.poavOf .poav1 = none) (r : Revision) {ops : List (Operation α)}
    (hops : ∀ op ∈ ops, op.IsUpkeep) :
    (∀ earlier, earlier <+: ops → (start.performAll r earlier).1.HasCurrentAxes) ↔
      ∀ earlier op, earlier ++ [op] <+: ops → op.KeepsAxes (start.performAll r earlier).1 := by
  refine forall_prefix_foldl_iff (fun s op => Operation.perform op s.1 s.2)
    (fun s => s.1.HasCurrentAxes) (fun s op => op.KeepsAxes s.1) (hasCurrentAxes_of_none haxes) ?_
  intro earlier op hop haxes
  have hearlier : ∀ op' ∈ earlier, op'.IsUpkeep := by
    intro op' hop'
    exact hops op' (hop.subset (List.mem_append_left [op] hop'))
  have hrefs : AreConsistent start.params.norm start.atoms := .of_unlisted hstart
  obtain ⟨norm, hconsistent⟩ := exists_areConsistent_performAll hrefs hearlier
  exact hasCurrentAxes_perform_iff haxes hconsistent.ids (hops op (hop.subset (by simp))) _

/-- An atom with three others around it, each farther away than the one before. -/
def tripod : Collection Double :=
  ⟨[{ Atom.placed "C" ⟨0, 0, 0⟩ with id := 1 }, { Atom.placed "C" ⟨1, 0, 0⟩ with id := 2 },
    { Atom.placed "C" ⟨0, 1.25, 0⟩ with id := 3 },
    { Atom.placed "C" ⟨0, 0, 1.5⟩ with id := 4 }], {}, none, 0⟩

/-- The neighbors of the four atoms below a cutoff. -/
def tripodRows (cutoff : Double) : List (List (Hit Double)) :=
  (SpatialIndex.mk tripod.positions .euclidean 0).closest 3 (some cutoff)

/-- Neighbors are found, and then axes. -/
def axialOps : List (Operation Double) :=
  [.findNeighbors 3 (some 1.6), .findPoav1]

/-- What this leads to: the atom in the middle has an axis. -/
def axialTripod : Collection Double :=
  (tripod.storeNeighbors (tripodRows 1.6) (some 1.6)).findPoav1

theorem performAll_axialOps : (tripod.performAll 0 axialOps).1 = axialTripod := by
  have hfound : tripod.findNeighbors 3 (some 1.6) =
      .ok (tripod.storeNeighbors (tripodRows 1.6) (some 1.6)) :=
    findNeighbors_eq_closest (by rfl) (by decide +kernel) 3
  simp only [performAll, axialOps, List.foldl_cons, List.foldl_nil, Operation.perform, hfound]
  rfl

theorem axes_current_iff_lists_keep_axial :
    ∃ a ∈ (tripod.performAll 0 axialOps).1.atoms, ∃ p, a.poavOf .poav1 = some p ∧
      ∃ x y z, (tripod.performAll 0 axialOps).1.neighborsOf a = [x, y, z] ∧ Poav.equalAngles?
        ⟨x.position - a.position, y.position - a.position, z.position - a.position⟩ = some p := by
  have haxes : ∀ a ∈ tripod.atoms, a.poavOf .poav1 = none := by
    intro a ha
    have hnone : ∀ a ∈ tripod.atoms, (a.poavOf .poav1).isNone = true := by decide
    simpa using hnone a ha
  have hupkeep : ∀ op ∈ axialOps, op.IsUpkeep := by
    simp [axialOps, Operation.IsUpkeep]
  have hkeep : ∀ earlier op, earlier ++ [op] <+: axialOps →
      op.KeepsAxes (tripod.performAll 0 earlier).1 := by
    intro earlier op hop
    rcases earlier with _ | ⟨first, _ | ⟨second, rest⟩⟩
    · obtain rfl : op = .findNeighbors 3 (some 1.6) := by simpa [axialOps] using hop
      intro rows _ i a row ha _ p hp
      rw [haxes a (List.mem_of_getElem? ha)] at hp
      cases hp
    · obtain ⟨-, rfl⟩ : first = .findNeighbors 3 (some 1.6) ∧ op = .findPoav1 := by
        simpa [axialOps] using hop
      exact trivial
    · have hlength := hop.length_le
      simp [axialOps] at hlength
  have hcurrent := (axes_current_iff_lists_keep ⟨by decide, by decide⟩ haxes 0 hupkeep).2 hkeep
    axialOps List.prefix_rfl
  have hsome : ∃ a ∈ (tripod.performAll 0 axialOps).1.atoms, (a.poavOf .poav1).isSome = true := by
    rw [performAll_axialOps]
    decide +kernel
  obtain ⟨a, ha, hpoav⟩ := hsome
  obtain ⟨p, hp⟩ := Option.isSome_iff_exists.1 hpoav
  exact ⟨a, ha, p, hp, hcurrent a ha p hp⟩

/-- The same, and then neighbors below a smaller cutoff. -/
def cutOps : List (Operation Double) :=
  axialOps ++ [.findNeighbors 3 (some 1.4)]

/-- What this leads to. -/
def cutTripod : Collection Double :=
  axialTripod.storeNeighbors (tripodRows 1.4) (some 1.4)

theorem performAll_cutOps : (tripod.performAll 0 cutOps).1 = cutTripod := by
  have hpositions : axialTripod.positions = tripod.positions := by
    refine (map_findPoav1 (fun _ _ => rfl) _).trans
      (map_zipWith_of_forall (fun a row => ?_) (by decide +kernel))
    rfl
  have hindex : axialTripod.index? = .ok (some ⟨tripod.positions, .euclidean, 0⟩) := by
    unfold index?
    rw [hpositions]
    rfl
  have hfound : axialTripod.findNeighbors 3 (some 1.4) = .ok cutTripod :=
    findNeighbors_eq_closest hindex (by decide +kernel) 3
  have hlast : (tripod.performAll 0 cutOps).1 =
      ((tripod.performAll 0 axialOps).1.findNeighbors 3 (some 1.4)).toOption.getD
        (tripod.performAll 0 axialOps).1 := by
    rw [performAll, cutOps, List.foldl_append]
    rfl
  rw [hlast, performAll_axialOps, hfound]
  rfl

/-- **The atom in the middle still has its axis when its list leads to two atoms.** -/
theorem exists_outdated_axis : AreUnlisted tripod.atoms ∧
    (∀ a ∈ tripod.atoms, (a.poavOf .poav1).isNone = true) ∧ (∀ op ∈ cutOps, op.IsUpkeep) ∧
    ∃ a ∈ (tripod.performAll 0 cutOps).1.atoms, (a.poavOf .poav1).isSome = true ∧
      ((tripod.performAll 0 cutOps).1.neighborsOf a).map (·.id) = [2, 3] := by
  refine ⟨⟨by decide, by decide⟩, by decide, by simp [cutOps, axialOps, Operation.IsUpkeep], ?_⟩
  rw [performAll_cutOps]
  decide +kernel

end Collection

end Honeycomb
