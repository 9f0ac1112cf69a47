import Honeycomb.Trajectory
import Honeycomb.Proofs.Collection.Operation

/-!
# Revisions and the indexes that carry them

* `Session` — what a program holds: collections, trajectories of them, and every spatial index that
  it has ever built. `Session.Action` — what it can do next; `Session.run` — what it holds after a
  list of actions.
* `History` — positions by revision. `Session.Accounts` — a history knows the positions of all
  collections and the points of all indexes.
* `Edit.Tracks.continues`, `Session.Accounts.exists_step` — a step can only add to a history;
  `Session.exists_accounts_run` — there is one after every run.

Principal result: `Session.points_eq_of_not_isStale` — an index that does not say that it is out of
date is over the current positions.
-/

set_option autoImplicit false

namespace Honeycomb

variable {α : Type}

/-! ## Sessions -/

/-- What a program holds at one moment, and the revision that is drawn next. No index that was
built is ever dropped from the list. -/
structure Session (α : Type) where
  counter : Revision := 1
  collections : List (Collection α) := []
  trajectories : List (Trajectory α) := []
  indexes : List (SpatialIndex α) := []

namespace Session

/-- What a program can do next. A collection that is changed is given by its place among those that
are no frames of a trajectory, one that is only read by its place among all. -/
inductive Action (α : Type) where
  | create (atoms : List (Atom α))
  | copy (i : Nat)
  | discard (i : Nat)
  | perform (i : Nat) (op : Collection.Operation α)
  /-- The result is put beside the collection, as with a filter. -/
  | derive (i : Nat) (op : Collection.Operation α)
  | build (i : Nat)
  /-- A new trajectory with these frames. -/
  | gather (places : List Nat)
  | push (k i : Nat)
  | copyTrajectory (k : Nat)
  | setReference (k i : Nat)

/-- All collections, the frames of trajectories included. -/
def alive (s : Session α) : List (Collection α) :=
  s.collections ++ s.trajectories.flatMap (·.frames)

/-- Puts a collection that an edit makes beside the others. -/
def addMade (s : Session α) (edit : Edit (Collection α)) : Session α :=
  { s with counter := (edit s.counter).2, collections := s.collections ++ [(edit s.counter).1] }

/-- Puts a collection that an edit makes in the place of another. -/
def replaceAt (s : Session α) (i : Nat) (edit : Edit (Collection α)) : Session α :=
  { s with counter := (edit s.counter).2, collections := s.collections.set i (edit s.counter).1 }

/-- Links a trajectory to one of its frames, if there is such a frame. -/
def linkAt (s : Session α) (k : Nat) (t : Trajectory α) (i : Nat) : Session α :=
  match t.setReference i s.counter with
  | (.ok linked, counter) => { s with counter, trajectories := s.trajectories.set k linked }
  | (.error _, counter) => { s with counter }

variable [Scalar α]

/-- What a program holds after an action. Nothing happens where there is nothing at a place. -/
def step (s : Session α) : Action α → Session α
  | .create atoms => s.addMade (Collection.ofAtoms atoms)
  | .copy i => { s with collections := s.collections ++ s.alive[i]?.toList }
  | .discard i => { s with collections := s.collections.eraseIdx i }
  | .perform i op =>
    match s.collections[i]? with
    | none => s
    | some c => s.replaceAt i (op.perform c)
  | .derive i op =>
    match s.alive[i]? with
    | none => s
    | some c => s.addMade (op.perform c)
  | .build i =>
    match s.alive[i]? with
    | none => s
    | some c => { s with indexes := s.indexes ++ c.index?.toOption.join.toList }
  | .gather places =>
    { s with trajectories := s.trajectories ++ [{ frames := places.filterMap (s.alive[·]?) }] }
  | .push k i =>
    match s.trajectories[k]?, s.alive[i]? with
    | some t, some c => { s with trajectories := s.trajectories.set k (t.push c) }
    | _, _ => s
  | .copyTrajectory k => { s with trajectories := s.trajectories ++ s.trajectories[k]?.toList }
  | .setReference k i =>
    match s.trajectories[k]? with
    | none => s
    | some t => s.linkAt k t i

/-- What a program holds after a list of actions. -/
def run (actions : List (Action α)) : Session α :=
  actions.foldl step {}

end Session

/-! ## Histories -/

/-- Positions by revision, for all revisions drawn so far. -/
abbrev History (α : Type) := List (List (Vec3 α))

/-- A history knows the positions of a collection. -/
def Collection.IsRecorded (c : Collection α) (history : History α) : Prop :=
  history[c.revision]? = some c.positions

variable {history later : History α} {c : Collection α}

theorem getElem?_of_isPrefix {r : Revision} {ps : List (Vec3 α)} (hextends : history <+: later)
    (h : history[r]? = some ps) : later[r]? = some ps := by
  obtain ⟨rest, rfl⟩ := hextends
  obtain ⟨hr, -⟩ := List.getElem?_eq_some_iff.1 h
  rwa [List.getElem?_append_left hr]

theorem Collection.IsRecorded.mono (h : c.IsRecorded history) (hextends : history <+: later) :
    c.IsRecorded later :=
  getElem?_of_isPrefix hextends h

/-- A longer history knows what a step makes. -/
def Edit.Continues (history : History α) (edit : Edit (Collection α)) : Prop :=
  ∃ later, history <+: later ∧ later.length = (edit history.length).2 ∧
    (edit history.length).1.IsRecorded later

theorem Edit.continues_ofAtoms (atoms : List (Atom α)) :
    Edit.Continues history (Collection.ofAtoms atoms) :=
  ⟨history ++ [atoms.map (·.position)], List.prefix_append _ _, List.length_append,
    List.getElem?_concat_length⟩

/-- A step that tracks adds the positions of its result, or its result is known already. -/
theorem Edit.Tracks.continues {edit : Edit (Collection α)} (h : Edit.Tracks c edit)
    (hc : c.IsRecorded history) : Edit.Continues history edit := by
  rcases h history.length with ⟨hrevision, hnext⟩ | ⟨hrevision, hpositions, hnext⟩
  · refine ⟨history ++ [(edit history.length).1.positions], List.prefix_append _ _, ?_, ?_⟩
    · simp [hnext]
    · unfold Collection.IsRecorded
      rw [hrevision, List.getElem?_concat_length]
  · refine ⟨history, List.prefix_refl _, hnext.symm, ?_⟩
    unfold Collection.IsRecorded
    rw [hrevision, hpositions]
    exact hc

/-- One after another, steps that track make a history of all their results. -/
theorem Edit.exists_history_mapM {edit : Collection α → Edit (Collection α)}
    (hedit : ∀ c, Edit.Tracks c (edit c)) :
    ∀ (frames : List (Collection α)) (history : History α),
      (∀ c ∈ frames, c.IsRecorded history) →
      ∃ later, history <+: later ∧ later.length = (frames.mapM edit history.length).2 ∧
        ∀ c ∈ (frames.mapM edit history.length).1, c.IsRecorded later
  | [], history, _ => ⟨history, List.prefix_refl _, rfl, by simp [pure, StateT.pure]⟩
  | c :: frames, history, h => by
    obtain ⟨next, hnext, hlength, hfirst⟩ :=
      (hedit c).continues (h c List.mem_cons_self)
    have hframes : ∀ c ∈ frames, c.IsRecorded next := by
      intro c' hc'
      exact (h c' (List.mem_cons_of_mem _ hc')).mono hnext
    obtain ⟨later, hlater, hlength', hrest⟩ := exists_history_mapM hedit frames next hframes
    have hrun : (c :: frames).mapM edit history.length =
        ((edit c history.length).1 :: (frames.mapM edit next.length).1,
          (frames.mapM edit next.length).2) := by
      rw [List.mapM_cons, hlength]
      rfl
    rw [hrun]
    refine ⟨later, hnext.trans hlater, hlength', ?_⟩
    intro c' hc'
    rcases List.mem_cons.1 hc' with rfl | hc'
    · exact hfirst.mono hlater
    · exact hrest c' hc'

/-- All frames of a linked trajectory are new, or the frame to refer to does not exist. -/
theorem Trajectory.setReference_cases (t : Trajectory α) (i : Nat) (r : Revision) :
    (∃ e, t.setReference i r = (.error e, r)) ∨
      ∃ f : Atom α → Atom α, t.setReference i r =
        (.ok ⟨(t.frames.mapM (·.modifyAll f) r).1, some i⟩,
          (t.frames.mapM (·.modifyAll f) r).2) := by
  unfold setReference
  cases t.frames[i]? with
  | none => exact .inl ⟨_, rfl⟩
  | some frame => exact .inr ⟨_, rfl⟩

/-! ## The history of a session -/

namespace Session

variable {s s' : Session α} [Scalar α]

omit [Scalar α] in
theorem mem_alive_of_mem (h : c ∈ s.collections) : c ∈ s.alive :=
  List.mem_append_left _ h

omit [Scalar α] in
theorem mem_alive_of_frame {t : Trajectory α} (ht : t ∈ s.trajectories) (h : c ∈ t.frames) :
    c ∈ s.alive :=
  List.mem_append_right _ (List.mem_flatMap.2 ⟨t, ht, h⟩)

/-- A history knows the positions of all collections and the points of all indexes, and every index
was made by building one. -/
structure Accounts (history : History α) (s : Session α) : Prop where
  length : history.length = s.counter
  recorded : ∀ c ∈ s.alive, c.IsRecorded history
  indexes : ∀ index ∈ s.indexes, history[index.revision]? = some index.points
  built : ∀ index ∈ s.indexes,
    SpatialIndex.ofPoints? index.points index.norm index.revision = .ok (some index)

namespace Accounts

/-- A longer history accounts for what a step leaves, if it knows what is new. -/
theorem extend (h : Accounts history s) (hextends : history <+: later)
    (hlength : later.length = s'.counter)
    (hcollections : ∀ c ∈ s'.collections, c ∈ s.alive ∨ c.IsRecorded later)
    (hframes : ∀ t ∈ s'.trajectories, t ∈ s.trajectories ∨ ∀ c ∈ t.frames, c.IsRecorded later)
    (hindexes : s'.indexes = s.indexes) : Accounts later s' where
  length := hlength
  recorded c hc := by
    have hknown : c ∈ s.alive ∨ c.IsRecorded later := by
      rcases List.mem_append.1 hc with hc | hc
      · exact hcollections c hc
      · obtain ⟨t, ht, hc⟩ := List.mem_flatMap.1 hc
        rcases hframes t ht with ht | hnew
        · exact .inl (mem_alive_of_frame ht hc)
        · exact .inr (hnew c hc)
    rcases hknown with hc | hnew
    · exact (h.recorded c hc).mono hextends
    · exact hnew
  indexes index hindex := getElem?_of_isPrefix hextends (h.indexes index (hindexes ▸ hindex))
  built index hindex := h.built index (hindexes ▸ hindex)

/-- Collections may be copied, moved or dropped. -/
theorem of_subset (h : Accounts history s) {collections : List (Collection α)}
    (hcollections : ∀ c ∈ collections, c ∈ s.alive) :
    Accounts history { s with collections } :=
  h.extend (List.prefix_refl _) h.length (fun c hc => .inl (hcollections c hc))
    (fun _ ht => .inl ht) rfl

/-- Trajectories may be made of collections. -/
theorem of_frames (h : Accounts history s) {trajectories : List (Trajectory α)}
    (hframes : ∀ t ∈ trajectories, t ∈ s.trajectories ∨ ∀ c ∈ t.frames, c ∈ s.alive) :
    Accounts history { s with trajectories } :=
  h.extend (List.prefix_refl _) h.length (fun _ hc => .inl (mem_alive_of_mem hc))
    (fun t ht => (hframes t ht).imp_right fun hall c hc => h.recorded c (hall c hc)) rfl

/-- An index over the current positions is accounted for with them. -/
theorem build (h : Accounts history s) (hc : c ∈ s.alive) :
    Accounts history { s with indexes := s.indexes ++ c.index?.toOption.join.toList } := by
  have hnew : ∀ index ∈ s.indexes ++ c.index?.toOption.join.toList,
      index ∈ s.indexes ∨ c.index? = .ok (some index) := by
    intro index hindex
    rcases List.mem_append.1 hindex with hindex | hindex
    · exact .inl hindex
    · cases hbuilt : c.index? with
      | error e => simp [hbuilt, Except.toOption] at hindex
      | ok built =>
        simp only [hbuilt, Except.toOption, Option.join_some, Option.mem_toList] at hindex
        exact .inr (by rw [hindex])
  refine ⟨h.length, h.recorded, ?_, ?_⟩
  · intro index hindex
    rcases hnew index hindex with hindex | hbuilt
    · exact h.indexes index hindex
    · obtain rfl := Collection.eq_of_index? hbuilt
      exact h.recorded c hc
  · intro index hindex
    rcases hnew index hindex with hindex | hbuilt
    · exact h.built index hindex
    · have heq := Collection.eq_of_index? hbuilt
      unfold Collection.index? at hbuilt
      rw [heq] at hbuilt ⊢
      exact hbuilt

/-- A collection that a step makes can be put beside the others. -/
theorem addMade {edit : Edit (Collection α)} (h : Accounts history s)
    (hedit : edit.Continues history) : ∃ later, Accounts later (s.addMade edit) := by
  obtain ⟨later, hextends, hlength, hrecorded⟩ := hedit
  rw [h.length] at hlength hrecorded
  refine ⟨later, h.extend hextends hlength ?_ (fun _ ht => .inl ht) rfl⟩
  intro c hc
  rcases List.mem_append.1 hc with hc | hc
  · exact .inl (mem_alive_of_mem hc)
  · exact .inr (List.mem_singleton.1 hc ▸ hrecorded)

/-- A collection that a step makes can take the place of another. -/
theorem replaceAt {edit : Edit (Collection α)} (h : Accounts history s) (i : Nat)
    (hedit : edit.Continues history) : ∃ later, Accounts later (s.replaceAt i edit) := by
  obtain ⟨later, hextends, hlength, hrecorded⟩ := hedit
  rw [h.length] at hlength hrecorded
  refine ⟨later, h.extend hextends hlength ?_ (fun _ ht => .inl ht) rfl⟩
  intro c hc
  rcases List.mem_or_eq_of_mem_set hc with hc | rfl
  · exact .inl (mem_alive_of_mem hc)
  · exact .inr hrecorded

/-- A trajectory can be linked to one of its frames. -/
theorem linkAt {t : Trajectory α} (h : Accounts history s) (k i : Nat)
    (ht : t ∈ s.trajectories) : ∃ later, Accounts later (s.linkAt k t i) := by
  unfold Session.linkAt
  rcases t.setReference_cases i s.counter with ⟨e, he⟩ | ⟨f, hf⟩
  · rw [he]
    exact ⟨history, h⟩
  · rw [hf]
    have hframes : ∀ c ∈ t.frames, c.IsRecorded history := by
      intro c hc
      exact h.recorded c (mem_alive_of_frame ht hc)
    obtain ⟨later, hextends, hlength, hrecorded⟩ := Edit.exists_history_mapM
      (fun c => Collection.tracks_restock (c.atoms.map fun a => f a.forgetNeighbors) none)
      t.frames history hframes
    rw [h.length] at hlength hrecorded
    refine ⟨later, h.extend hextends hlength (fun _ hc => .inl (mem_alive_of_mem hc)) ?_ rfl⟩
    intro t' ht'
    rcases List.mem_or_eq_of_mem_set ht' with ht' | rfl
    · exact .inl ht'
    · exact .inr hrecorded

/-- **What one action preserves**: there is a history for what it leaves. -/
theorem exists_step (h : Accounts history s) (action : Action α) :
    ∃ later, Accounts later (s.step action) := by
  cases action with
  | create atoms => exact h.addMade (Edit.continues_ofAtoms atoms)
  | copy i =>
    refine ⟨history, h.of_subset fun c hc => ?_⟩
    rcases List.mem_append.1 hc with hc | hc
    · exact mem_alive_of_mem hc
    · exact List.mem_of_getElem? (Option.mem_toList.1 hc)
  | discard i =>
    exact ⟨history, h.of_subset fun c hc => mem_alive_of_mem (List.mem_of_mem_eraseIdx hc)⟩
  | perform i op =>
    simp only [step]
    cases hplace : s.collections[i]? with
    | none => exact ⟨history, h⟩
    | some c =>
      have hc := mem_alive_of_mem (List.mem_of_getElem? hplace)
      exact h.replaceAt i ((op.tracks_perform c).continues (h.recorded c hc))
  | derive i op =>
    simp only [step]
    cases hplace : s.alive[i]? with
    | none => exact ⟨history, h⟩
    | some c =>
      have hc := List.mem_of_getElem? hplace
      exact h.addMade ((op.tracks_perform c).continues (h.recorded c hc))
  | build i =>
    simp only [step]
    cases hplace : s.alive[i]? with
    | none => exact ⟨history, h⟩
    | some c => exact ⟨history, h.build (List.mem_of_getElem? hplace)⟩
  | gather places =>
    refine ⟨history, h.of_frames fun t ht => ?_⟩
    rcases List.mem_append.1 ht with ht | ht
    · exact .inl ht
    · right
      intro c hc
      rw [List.mem_singleton.1 ht] at hc
      obtain ⟨i, -, hplace⟩ := List.mem_filterMap.1 hc
      exact List.mem_of_getElem? hplace
  | push k i =>
    simp only [step]
    cases hk : s.trajectories[k]? with
    | none => exact ⟨history, h⟩
    | some t =>
      cases hplace : s.alive[i]? with
      | none => exact ⟨history, h⟩
      | some frame =>
        refine ⟨history, h.of_frames fun t' ht' => ?_⟩
        rcases List.mem_or_eq_of_mem_set ht' with ht' | rfl
        · exact .inl ht'
        · right
          intro c hc
          rcases List.mem_append.1 hc with hc | hc
          · exact mem_alive_of_frame (List.mem_of_getElem? hk) hc
          · exact List.mem_singleton.1 hc ▸ List.mem_of_getElem? hplace
  | copyTrajectory k =>
    refine ⟨history, h.of_frames fun t ht => ?_⟩
    rcases List.mem_append.1 ht with ht | ht
    · exact .inl ht
    · exact .inl (List.mem_of_getElem? (Option.mem_toList.1 ht))
  | setReference k i =>
    simp only [step]
    cases hk : s.trajectories[k]? with
    | none => exact ⟨history, h⟩
    | some t => exact h.linkAt k i (List.mem_of_getElem? hk)

/-- What a list of actions preserves. -/
theorem exists_foldl (actions : List (Action α)) :
    ∀ {s : Session α} {history : History α}, Accounts history s →
      ∃ later, Accounts later (actions.foldl step s) := by
  induction actions with
  | nil => exact fun h => ⟨_, h⟩
  | cons action rest ih =>
    intro s history h
    obtain ⟨next, hnext⟩ := h.exists_step action
    exact ih hnext

end Accounts

/-- **Every run has a history.** It starts with a revision that no collection ever has. -/
theorem exists_accounts_run (actions : List (Action α)) :
    ∃ history, Accounts history (run actions) := by
  have hstart : Accounts [[]] ({} : Session α) := ⟨rfl, by simp [alive], by simp, by simp⟩
  exact hstart.exists_foldl actions

/-! ## Current indexes -/

variable {index : SpatialIndex α}

/-- An index and a collection of one revision have the same positions in the history. -/
theorem Accounts.points_eq (h : Accounts history s) (hindex : index ∈ s.indexes)
    (hc : c ∈ s.alive) (hrevision : index.revision = c.revision) :
    index.points = c.positions := by
  have hpoints := h.indexes index hindex
  rw [hrevision, h.recorded c hc] at hpoints
  exact (Option.some.inj hpoints).symm

/-- An index is not out of date when it has just been built. -/
theorem isStale_eq_false_of_index? (h : c.index? = .ok (some index)) : index.isStale c = false := by
  obtain rfl := Collection.eq_of_index? h
  simp [SpatialIndex.isStale, SpatialIndex.size, Collection.size, Collection.positions]

/-- **An index that does not say that it is out of date is over the current positions**, after
every run. One that has just been built does not say so. -/
theorem points_eq_of_not_isStale (actions : List (Action α))
    (hindex : index ∈ (run actions).indexes) (hc : c ∈ (run actions).alive) :
    (index.isStale c = false → index.points = c.positions) ∧
      (c.index? = .ok (some index) → index.isStale c = false) := by
  obtain ⟨history, h⟩ := exists_accounts_run actions
  refine ⟨fun hcurrent => ?_, isStale_eq_false_of_index?⟩
  exact h.points_eq hindex hc (SpatialIndex.revision_eq_of_not_isStale hcurrent)

/-- Two atoms. -/
def atomPair : List (Atom Double) :=
  [Atom.placed "C" ⟨0, 0, 0⟩, Atom.placed "N" ⟨1.5, 0, 0⟩]

/-- An index is built, and the collection moved away from a copy of itself. -/
def movedFromCopy : List (Action Double) :=
  [.create atomPair, .build 0, .copy 0, .perform 0 (.shiftBy ⟨1, 0, 0⟩)]

theorem points_eq_of_not_isStale_copy :
    ∃ index ∈ (run movedFromCopy).indexes, ∃ c ∈ (run movedFromCopy).alive,
      index.isStale c = false ∧ index.points = c.positions := by
  have hindex : (run movedFromCopy).indexes[0]? =
      some ⟨atomPair.map (·.position), .euclidean, 1⟩ := by rfl
  have hcopy : (run movedFromCopy).alive[1]? = some ⟨atomPair, {}, none, 1⟩ := by rfl
  have hcurrent : (SpatialIndex.mk (atomPair.map (·.position)) .euclidean 1).isStale
      ⟨atomPair, {}, none, 1⟩ = false := by rfl
  have hmem := List.mem_of_getElem? hindex
  have hmem' := List.mem_of_getElem? hcopy
  exact ⟨_, hmem, _, hmem', hcurrent,
    (points_eq_of_not_isStale movedFromCopy hmem hmem').1 hcurrent⟩

end Session

end Honeycomb
