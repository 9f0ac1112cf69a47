import Honeycomb.Collection.Motion
import Honeycomb.Collection.Numbering
import Honeycomb.Collection.Order
import Honeycomb.Selection.Evaluation
import Honeycomb.Proofs.Collection.Numbering
import Honeycomb.Proofs.Neighbor.Rows

/-!
# Operations on a collection

* `Collection.Operation` — all that can be done to a collection, a free edit of its atoms
  included; `Collection.Operation.perform` — what it comes to; `Collection.performAll` — what several
  come to, one after another.
* `Collection.map_findCoordination`, `Collection.map_findNeighbors`, `Collection.map_findPoav1` —
  what the operations that only mark the atoms leave as it is.
* `Edit.Tracks` — a step draws a new revision or moves nothing.

Principal result: `Collection.Operation.tracks_perform` — every operation tracks.
-/

set_option autoImplicit false

namespace Honeycomb

namespace Collection

/-- What can be done to a collection. Free edits may do anything to the atoms but add or remove
some. -/
inductive Operation (α : Type) where
  | append (a : Atom α)
  | extend (as : List (Atom α))
  | clear
  | sort (key : SortKey) (reverse : Bool)
  | filter (ids : List Nat) (invert : Bool)
  | select (p : Selection.Predicate α) (supplied : Option (SpatialIndex α))
  | modifyEach (f : Nat → Atom α → Atom α)
  | modifyAt (i : Nat) (f : Atom α → Atom α)
  | shiftBy (t : Vec3 α)
  | center
  | rotate (m : Mat3 α) (pivot : Option (Vec3 α))
  | rotateAbout (angle : α) (axis : Vec3 α) (pivot : Option (Vec3 α))
  | rotateAxis (angle : α) (axis : Axis) (pivot : Option (Vec3 α))
  | rotateEuler (roll pitch yaw : α) (pivot : Option (Vec3 α))
  | assignIds (start : Nat)
  | assignTypes
  | rebuildTypeTable
  | setNeighborNumber (n : Nat)
  | setNorm (norm : Norm α)
  | setNeighborCutoff (cutoff : α)
  | findCoordination (n : Nat) (cutoff : Option α)
  | findNeighbors (n : Nat) (cutoff : Option α)
  | updateCoordination
  | updateNeighbors
  | findPoav1

variable {α : Type} [Scalar α]

/-- What an operation leads to. A refused operation leaves the collection as it is. -/
def Operation.perform : Operation α → Collection α → Edit (Collection α)
  | append a, c => c.append a
  | extend as, c => c.extend as
  | clear, c => c.clear
  | sort key reverse, c => c.sort key reverse
  | filter ids invert, c => c.filter ids invert
  | select p supplied, c => (p.select c supplied).toOption.getD (pure c)
  | modifyEach f, c => c.modifyEach f
  | modifyAt i f, c => c.modifyAt i f
  | shiftBy t, c => c.shiftBy t
  | center, c => c.center
  | rotate m pivot, c => c.rotate m pivot
  | rotateAbout angle axis pivot, c => (c.rotateAbout? angle axis pivot).toOption.getD (pure c)
  | rotateAxis angle axis pivot, c => c.rotateAxis angle axis pivot
  | rotateEuler roll pitch yaw pivot, c => c.rotateEuler roll pitch yaw pivot
  | assignIds start, c => pure (c.assignIds start)
  | assignTypes, c => pure c.assignTypes
  | rebuildTypeTable, c => pure c.rebuildTypeTable
  | setNeighborNumber n, c => pure (c.setNeighborNumber n)
  | setNorm norm, c => pure (c.setNorm norm)
  | setNeighborCutoff cutoff, c => pure ((c.setNeighborCutoff cutoff).toOption.getD c)
  | findCoordination n cutoff, c => pure ((c.findCoordination n cutoff).toOption.getD c)
  | findNeighbors n cutoff, c => pure ((c.findNeighbors n cutoff).toOption.getD c)
  | updateCoordination, c => pure (c.updateCoordination.toOption.getD c)
  | updateNeighbors, c => pure (c.updateNeighbors.toOption.getD c)
  | findPoav1, c => pure c.findPoav1

/-- What operations one after another lead to, and the revision that is drawn next. -/
def performAll (c : Collection α) (r : Revision) (ops : List (Operation α)) :
    Collection α × Revision :=
  ops.foldl (fun s op => op.perform s.1 s.2) (c, r)

/-- A selection keeps some atoms, or it is refused. -/
theorem perform_select (p : Selection.Predicate α) (supplied : Option (SpatialIndex α))
    (c : Collection α) :
    (Operation.select p supplied).perform c = pure c ∨
      ∃ test : Atom α → Bool, (Operation.select p supplied).perform c = c.keep test := by
  simp only [Operation.perform, Selection.Predicate.select]
  cases p.eval c supplied with
  | error e => exact .inl rfl
  | ok ids => exact .inr ⟨_, rfl⟩

/-- A rotation about a vector turns by a matrix, or it is refused. -/
theorem perform_rotateAbout (angle : α) (axis : Vec3 α) (pivot : Option (Vec3 α))
    (c : Collection α) :
    (Operation.rotateAbout angle axis pivot).perform c = pure c ∨
      ∃ m, (Operation.rotateAbout angle axis pivot).perform c = c.rotate m pivot := by
  simp only [Operation.perform, rotateAbout?]
  cases Mat3.about? axis angle with
  | error e => exact .inl rfl
  | ok m => exact .inr ⟨m, rfl⟩

/-- A cutoff changes no atom. -/
theorem atoms_of_setNeighborCutoff {cutoff : α} {c c' : Collection α}
    (h : c.setNeighborCutoff cutoff = .ok c') :
    c'.atoms = c.atoms ∧ c'.revision = c.revision := by
  unfold setNeighborCutoff at h
  split at h
  · obtain rfl := Except.ok.inj h
    exact ⟨rfl, rfl⟩
  · cases h

/-! ## What marking leaves -/

section

variable {β : Type} {view : Atom α → β} {c c' : Collection α} {n : Nat} {cutoff : Option α}

theorem map_findPoav1 (hview : ∀ a p, view (a.withPoav p) = view a) (c : Collection α) :
    c.findPoav1.atoms.map view = c.atoms.map view := by
  unfold findPoav1
  rw [List.map_map]
  refine List.map_congr_left fun a _ => ?_
  dsimp only [Function.comp_apply]
  split
  · exact hview a _
  · rfl

/-- An index is over the positions of all atoms. -/
theorem eq_of_index? {index : SpatialIndex α} (h : c.index? = .ok (some index)) :
    index = ⟨c.positions, c.params.norm, c.revision⟩ :=
  (SpatialIndex.ofPoints?_eq_some_iff.1 h).2.2

/-- There is no index when there are no atoms. -/
theorem atoms_eq_nil_of_index? (h : c.index? = .ok none) : c.atoms = [] :=
  List.map_eq_nil_iff.1 (SpatialIndex.ofPoints?_eq_none_iff.1 h)

/-- Every atom has a row, of other atoms with their distances. -/
theorem queryRows_spec {rows : List (List (Hit α))} (h : c.queryRows n cutoff = .ok rows) :
    rows.length = c.atoms.length ∧
      ∀ (i : Nat) (row : List (Hit α)), rows[i]? = some row →
        ∀ hit ∈ row, hit.index ≠ i ∧ ∃ p q, c.positions[i]? = some p ∧
          c.positions[hit.index]? = some q ∧ hit.distance = c.params.norm.distance p q := by
  unfold queryRows at h
  cases hindex : c.index? with
  | error e =>
    rw [hindex] at h
    cases h
  | ok index =>
    rw [hindex] at h
    cases index with
    | none =>
      obtain rfl := Except.ok.inj h
      simp [atoms_eq_nil_of_index? hindex]
    | some index =>
      obtain rfl := Except.ok.inj h
      obtain rfl := eq_of_index? hindex
      have hquery := SpatialIndex.query_spec ⟨c.positions, c.params.norm, c.revision⟩ n cutoff
      rwa [SpatialIndex.size, positions, List.length_map] at hquery

/-- Coordination numbers are found from as many rows as there are atoms. -/
theorem exists_rows_of_findCoordination (h : c.findCoordination n cutoff = .ok c') :
    ∃ rows : List (List (Hit α)), rows.length = c.atoms.length ∧
      c' = c.storeCoordination rows cutoff := by
  unfold findCoordination at h
  cases hindex : c.index? with
  | error e =>
    rw [hindex] at h
    cases h
  | ok index =>
    rw [hindex] at h
    cases index with
    | none => exact ⟨[], by simp [atoms_eq_nil_of_index? hindex], (Except.ok.inj h).symm⟩
    | some index =>
      obtain rfl := eq_of_index? hindex
      refine ⟨_, ?_, (Except.ok.inj h).symm⟩
      rw [SpatialIndex.length_closest, SpatialIndex.size, positions, List.length_map]

/-- Neighbor lists are made of the rows that a query finds. -/
theorem exists_rows_of_findNeighbors (h : c.findNeighbors n cutoff = .ok c') :
    ∃ rows, c.queryRows n cutoff = .ok rows ∧ c' = c.storeNeighbors rows cutoff := by
  unfold findNeighbors at h
  cases hrows : c.queryRows n cutoff with
  | error e =>
    rw [hrows] at h
    cases h
  | ok rows =>
    rw [hrows] at h
    exact ⟨rows, rfl, (Except.ok.inj h).symm⟩

/-- Without ties the neighbors are the closest atoms. -/
theorem findNeighbors_eq_closest {index : SpatialIndex α} (hindex : c.index? = .ok (some index))
    (huntied : index.IsUntied cutoff) (n : Nat) :
    c.findNeighbors n cutoff = .ok (c.storeNeighbors (index.closest n cutoff) cutoff) := by
  unfold findNeighbors queryRows
  rw [hindex, ← SpatialIndex.query_eq_closest huntied n]
  rfl

theorem map_findCoordination (hview : ∀ a k, view (a.withCoordination k) = view a)
    (h : c.findCoordination n cutoff = .ok c') : c'.atoms.map view = c.atoms.map view := by
  obtain ⟨rows, hlength, rfl⟩ := exists_rows_of_findCoordination h
  exact map_zipWith_of_forall (fun a row => hview a _) hlength

theorem map_findNeighbors (hview : ∀ a refs, view (a.withNeighbors refs) = view a)
    (h : c.findNeighbors n cutoff = .ok c') : c'.atoms.map view = c.atoms.map view := by
  obtain ⟨rows, hrows, rfl⟩ := exists_rows_of_findNeighbors h
  exact map_zipWith_of_forall (fun a row => hview a _) (queryRows_spec hrows).1

end

end Collection

/-! ## Revisions -/

/-- A step either gives its result a new revision or leaves revision and positions. -/
def Edit.Tracks {α : Type} (c : Collection α) (edit : Edit (Collection α)) : Prop :=
  ∀ r, (edit r).1.revision = r ∧ (edit r).2 = r + 1 ∨
    (edit r).1.revision = c.revision ∧ (edit r).1.positions = c.positions ∧ (edit r).2 = r

namespace Collection

section

variable {α : Type} {c c' : Collection α}

theorem tracks_restock (atoms : List (Atom α)) (typeTable : Option (TypeTable α)) :
    Edit.Tracks c (c'.restock atoms typeTable) :=
  fun _ => .inl ⟨rfl, rfl⟩

theorem tracks_keep (p : Atom α → Bool) : Edit.Tracks c (c'.keep p) :=
  fun _ => .inl ⟨rfl, rfl⟩

theorem tracks_pure (hrevision : c'.revision = c.revision)
    (hpositions : c'.positions = c.positions) : Edit.Tracks c (pure c') :=
  fun _ => .inr ⟨hrevision, hpositions, rfl⟩

/-- A refusal draws no revision. -/
theorem tracks_pure_toOption_getD {ε : Type} {outcome : Except ε (Collection α)}
    (h : ∀ c', outcome = .ok c' → c'.revision = c.revision ∧ c'.positions = c.positions) :
    Edit.Tracks c (pure (outcome.toOption.getD c)) := by
  cases outcome with
  | ok c' => exact tracks_pure (h c' rfl).1 (h c' rfl).2
  | error e => exact tracks_pure rfl rfl

end

section

variable {α : Type} [Scalar α] {n : Nat} {cutoff : Option α}

omit [Scalar α] in
theorem tracks_modifyAt (i : Nat) (f : Atom α → Atom α) (c : Collection α) :
    Edit.Tracks c (c.modifyAt i f) := by
  unfold modifyAt
  split
  · exact tracks_restock _ _
  · exact tracks_pure rfl rfl

omit [Scalar α] in
theorem positions_assignIds (start : Nat) (c : Collection α) :
    (c.assignIds start).positions = c.positions := by
  refine map_mapIdx_of_forall (fun i a => ?_) c.atoms
  rfl

theorem tracks_findCoordination (c : Collection α) :
    Edit.Tracks c (pure ((c.findCoordination n cutoff).toOption.getD c)) := by
  refine tracks_pure_toOption_getD fun c' h => ⟨?_, map_findCoordination (fun _ _ => rfl) h⟩
  obtain ⟨rows, -, rfl⟩ := exists_rows_of_findCoordination h
  rfl

theorem tracks_findNeighbors (c : Collection α) :
    Edit.Tracks c (pure ((c.findNeighbors n cutoff).toOption.getD c)) := by
  refine tracks_pure_toOption_getD fun c' h => ⟨?_, map_findNeighbors (fun _ _ => rfl) h⟩
  obtain ⟨rows, -, rfl⟩ := exists_rows_of_findNeighbors h
  rfl

/-- **Every operation tracks**: what moves, adds, removes or reorders atoms draws a new
revision. -/
theorem Operation.tracks_perform (op : Operation α) (c : Collection α) :
    Edit.Tracks c (op.perform c) := by
  cases op with
  | append a => exact tracks_restock _ _
  | extend as => exact tracks_restock _ _
  | clear => exact tracks_restock _ _
  | sort key reverse => exact tracks_restock _ _
  | filter ids invert => exact tracks_keep _
  | select p supplied =>
    rcases perform_select p supplied c with h | ⟨test, h⟩
    · rw [h]
      exact tracks_pure rfl rfl
    · rw [h]
      exact tracks_keep test
  | modifyEach f => exact tracks_restock _ _
  | modifyAt i f => exact tracks_modifyAt i f c
  | shiftBy t => exact tracks_restock _ _
  | center => exact tracks_restock _ _
  | rotate m pivot => exact tracks_restock _ _
  | rotateAbout angle axis pivot =>
    rcases perform_rotateAbout angle axis pivot c with h | ⟨m, h⟩
    · rw [h]
      exact tracks_pure rfl rfl
    · rw [h]
      exact tracks_restock _ _
  | rotateAxis angle axis pivot => exact tracks_restock _ _
  | rotateEuler roll pitch yaw pivot => exact tracks_restock _ _
  | assignIds start => exact tracks_pure rfl (positions_assignIds start c)
  | assignTypes => exact tracks_pure rfl (map_typedByElement (fun _ _ => rfl) c.atoms)
  | rebuildTypeTable => exact tracks_pure rfl rfl
  | setNeighborNumber n => exact tracks_pure rfl rfl
  | setNorm norm => exact tracks_pure rfl rfl
  | setNeighborCutoff cutoff =>
    refine tracks_pure_toOption_getD fun c' h => ?_
    obtain ⟨hatoms, hrevision⟩ := atoms_of_setNeighborCutoff h
    exact ⟨hrevision, congrArg (List.map _) hatoms⟩
  | findCoordination n cutoff => exact tracks_findCoordination c
  | findNeighbors n cutoff => exact tracks_findNeighbors c
  | updateCoordination => exact tracks_findCoordination c
  | updateNeighbors => exact tracks_findNeighbors c
  | findPoav1 => exact tracks_pure rfl (map_findPoav1 (fun _ _ => rfl) c)

end

end Collection

end Honeycomb
