import Honeycomb.Proofs.Collection.Revision
import Honeycomb.Proofs.Tables

/-!
# Type tables and the atoms they are about

* `firstRecord?` — mass and charge of the first atom of an element;
  `TypeTable.getElem?_ofAtoms` — a table holds this for each element, and nothing else.
* `Collection.HasCurrentTable` — the table, if there is one, is that of the atoms as they are.
* `Collection.Operation.KeepsTable` — a sort leaves the first atom of each element as it was, in
  mass and charge, or there is no table.
* `Collection.hasCurrentTable_perform_iff`, `Session.hasCurrentTables_step_iff` — what one operation
  and what one action preserve.

Principal result: `Session.tables_current_iff_sorts_keep` — type tables are current at every moment
of a run just when every sort in it keeps them. `Session.exists_outdated_table` — there is a sort
that does not.
-/

set_option autoImplicit false

namespace Honeycomb

variable {α : Type}

/-! ## What a table holds -/

/-- Mass and charge of the first atom of an element. -/
def firstRecord? (atoms : List (Atom α)) (element : String) : Option (TypeEntry α) :=
  (atoms.find? (·.element == element)).map fun a => ⟨a.mass, a.charge⟩

/-- What is seen of an atom in a type table. -/
def Atom.typeView (a : Atom α) : String × TypeEntry α :=
  (a.element, ⟨a.mass, a.charge⟩)

/-- What else an atom carries does not matter. -/
theorem firstRecord?_congr {atoms atoms' : List (Atom α)}
    (hviews : atoms'.map Atom.typeView = atoms.map Atom.typeView) (element : String) :
    firstRecord? atoms' element = firstRecord? atoms element := by
  have hview : ∀ l : List (Atom α), firstRecord? l element =
      ((l.map Atom.typeView).find? (·.1 == element)).map (·.2) := by
    intro l
    rw [List.find?_map, Option.map_map]
    rfl
  rw [hview, hview, hviews]

/-- **A table holds mass and charge of the first atom of each element**, and no other keys. -/
theorem TypeTable.getElem?_ofAtoms (atoms : List (Atom α)) (element : String) :
    (TypeTable.ofAtoms atoms)[element]? = firstRecord? atoms element := by
  have hfirst := getElem?_foldl_insertIfNew (·.element)
    (fun a : Atom α => (⟨a.mass, a.charge⟩ : TypeEntry α)) atoms ∅ element
  rw [Std.TreeMap.getElem?_emptyc, Option.none_or] at hfirst
  exact hfirst

/-! ## Current tables -/

namespace Collection

variable {c c' : Collection α}

/-- The type table, if there is one, is the one that the atoms give now. -/
def HasCurrentTable (c : Collection α) : Prop :=
  ∀ table, c.typeTable = some table → ∀ element : String,
    table[element]? = (TypeTable.ofAtoms c.atoms)[element]?

theorem hasCurrentTable_of_none (h : c.typeTable = none) : c.HasCurrentTable := by
  intro table htable
  rw [h] at htable
  cases htable

/-- A table stays current as long as nobody changes what it shows. -/
theorem HasCurrentTable.of_views (h : c.HasCurrentTable) (htable : c'.typeTable = c.typeTable)
    (hviews : c'.atoms.map Atom.typeView = c.atoms.map Atom.typeView) : c'.HasCurrentTable := by
  intro table htable' element
  rw [htable] at htable'
  rw [h table htable' element, TypeTable.getElem?_ofAtoms, TypeTable.getElem?_ofAtoms,
    firstRecord?_congr hviews]

theorem hasCurrentTable_rebuildTypeTable (c : Collection α) :
    c.rebuildTypeTable.HasCurrentTable := by
  intro table htable element
  obtain rfl := Option.some.inj htable
  rfl

theorem hasCurrentTable_modifyAt (h : c.HasCurrentTable) (i : Nat) (f : Atom α → Atom α)
    (r : Revision) : (c.modifyAt i f r).1.HasCurrentTable := by
  unfold modifyAt
  split
  · exact hasCurrentTable_of_none rfl
  · exact h

/-- A refused operation leaves the table. -/
theorem hasCurrentTable_toOption_getD {ε : Type} {outcome : Except ε (Collection α)}
    (h : c.HasCurrentTable)
    (hviews : ∀ c', outcome = .ok c' → c'.typeTable = c.typeTable ∧
      c'.atoms.map Atom.typeView = c.atoms.map Atom.typeView) :
    (outcome.toOption.getD c).HasCurrentTable := by
  cases outcome with
  | ok c' => exact h.of_views (hviews c' rfl).1 (hviews c' rfl).2
  | error e => exact h

section

variable [Scalar α] {n : Nat} {cutoff : Option α}

theorem hasCurrentTable_findCoordination (h : c.HasCurrentTable) :
    ((c.findCoordination n cutoff).toOption.getD c).HasCurrentTable := by
  refine hasCurrentTable_toOption_getD h fun c' hfound => ⟨?_, ?_⟩
  · obtain ⟨rows, -, rfl⟩ := exists_rows_of_findCoordination hfound
    rfl
  · exact map_findCoordination (fun _ _ => rfl) hfound

theorem hasCurrentTable_findNeighbors (h : c.HasCurrentTable) :
    ((c.findNeighbors n cutoff).toOption.getD c).HasCurrentTable := by
  refine hasCurrentTable_toOption_getD h fun c' hfound => ⟨?_, ?_⟩
  · obtain ⟨rows, -, rfl⟩ := exists_rows_of_findNeighbors hfound
    rfl
  · exact map_findNeighbors (fun _ _ => rfl) hfound

/-- A sort keeps the type table: there is none, or the first atom of each element has the mass and
the charge that the first one had before. Nothing else puts a table at risk. -/
def Operation.KeepsTable (c : Collection α) (r : Revision) : Operation α → Prop
  | sort key reverse => c.typeTable = none ∨
      ∀ element, firstRecord? (c.sort key reverse r).1.atoms element = firstRecord? c.atoms element
  | _ => True

/-- A sorted collection has its old table. -/
theorem hasCurrentTable_sort_iff (h : c.HasCurrentTable) (key : SortKey) (reverse : Bool)
    (r : Revision) :
    (c.sort key reverse r).1.HasCurrentTable ↔ (Operation.sort key reverse).KeepsTable c r := by
  have hkept : (c.sort key reverse r).1.typeTable = c.typeTable := rfl
  unfold Operation.KeepsTable
  cases htable : c.typeTable with
  | none =>
    rw [htable] at hkept
    exact iff_of_true (hasCurrentTable_of_none hkept) (.inl rfl)
  | some table =>
    have hold : ∀ element : String, table[element]? = firstRecord? c.atoms element := by
      intro element
      rw [h table htable element, TypeTable.getElem?_ofAtoms]
    constructor
    · intro hsorted
      right
      intro element
      rw [← hold element, hsorted table (hkept.trans htable) element, TypeTable.getElem?_ofAtoms]
    · rintro (hnone | hfirsts) table' htable' element
      · cases hnone
      · have heq : table' = table := by
          rw [hkept, htable] at htable'
          exact (Option.some.inj htable').symm
        rw [heq, hold element, TypeTable.getElem?_ofAtoms, hfirsts element]

/-- **What one operation does to a current table**: only a sort can make it wrong. -/
theorem hasCurrentTable_perform_iff (h : c.HasCurrentTable) (op : Operation α) (r : Revision) :
    (op.perform c r).1.HasCurrentTable ↔ op.KeepsTable c r := by
  cases op with
  | sort key reverse => exact hasCurrentTable_sort_iff h key reverse r
  | append a => exact iff_of_true (hasCurrentTable_of_none rfl) trivial
  | extend as => exact iff_of_true (hasCurrentTable_of_none rfl) trivial
  | clear => exact iff_of_true (hasCurrentTable_of_none rfl) trivial
  | filter ids invert => exact iff_of_true (hasCurrentTable_of_none rfl) trivial
  | select p supplied =>
    rcases perform_select p supplied c with heq | ⟨test, heq⟩
    · exact iff_of_true (heq ▸ h) trivial
    · exact iff_of_true (heq ▸ hasCurrentTable_of_none rfl) trivial
  | modifyEach f => exact iff_of_true (hasCurrentTable_of_none rfl) trivial
  | modifyAt i f => exact iff_of_true (hasCurrentTable_modifyAt h i f r) trivial
  | shiftBy t => exact iff_of_true (hasCurrentTable_of_none rfl) trivial
  | center => exact iff_of_true (hasCurrentTable_of_none rfl) trivial
  | rotate m pivot => exact iff_of_true (hasCurrentTable_of_none rfl) trivial
  | rotateAbout angle axis pivot =>
    rcases perform_rotateAbout angle axis pivot c with heq | ⟨m, heq⟩
    · exact iff_of_true (heq ▸ h) trivial
    · exact iff_of_true (heq ▸ hasCurrentTable_of_none rfl) trivial
  | rotateAxis angle axis pivot => exact iff_of_true (hasCurrentTable_of_none rfl) trivial
  | rotateEuler roll pitch yaw pivot => exact iff_of_true (hasCurrentTable_of_none rfl) trivial
  | assignIds start => exact iff_of_true (hasCurrentTable_of_none rfl) trivial
  | assignTypes => exact iff_of_true (hasCurrentTable_of_none rfl) trivial
  | rebuildTypeTable => exact iff_of_true (hasCurrentTable_rebuildTypeTable c) trivial
  | setNeighborNumber n => exact iff_of_true (h.of_views rfl rfl) trivial
  | setNorm norm => exact iff_of_true (h.of_views rfl rfl) trivial
  | setNeighborCutoff cutoff =>
    refine iff_of_true (hasCurrentTable_toOption_getD h fun c' hset => ?_) trivial
    unfold setNeighborCutoff at hset
    split at hset
    · obtain rfl := Except.ok.inj hset
      exact ⟨rfl, rfl⟩
    · cases hset
  | findCoordination n cutoff => exact iff_of_true (hasCurrentTable_findCoordination h) trivial
  | findNeighbors n cutoff => exact iff_of_true (hasCurrentTable_findNeighbors h) trivial
  | updateCoordination => exact iff_of_true (hasCurrentTable_findCoordination h) trivial
  | updateNeighbors => exact iff_of_true (hasCurrentTable_findNeighbors h) trivial
  | findPoav1 =>
    exact iff_of_true (h.of_views rfl (map_findPoav1 (fun _ _ => rfl) c)) trivial

end

end Collection

/-! ## Sessions -/

/-- What edits make of collections one after another. -/
theorem Edit.forall_mem_mapM {edit : Collection α → Edit (Collection α)}
    (holds : Collection α → Prop) (hedit : ∀ c r, holds (edit c r).1) :
    ∀ (frames : List (Collection α)) (r : Revision), ∀ c ∈ (frames.mapM edit r).1, holds c
  | [], r, c, hc => by
    simp [pure, StateT.pure] at hc
  | frame :: frames, r, c, hc => by
    have hrun : (frame :: frames).mapM edit r =
        ((edit frame r).1 :: (frames.mapM edit (edit frame r).2).1,
          (frames.mapM edit (edit frame r).2).2) := by
      rw [List.mapM_cons]
      rfl
    rw [hrun] at hc
    rcases List.mem_cons.1 hc with rfl | hc
    · exact hedit frame r
    · exact forall_mem_mapM holds hedit frames _ c hc

namespace Session

variable {s : Session α} {c : Collection α}

theorem mem_alive_addMade {edit : Edit (Collection α)} :
    c ∈ (s.addMade edit).alive ↔ c ∈ s.alive ∨ c = (edit s.counter).1 := by
  simp only [alive, addMade, List.mem_append, List.mem_singleton]
  tauto

theorem mem_alive_replaceAt {edit : Edit (Collection α)} {i : Nat}
    (h : c ∈ (s.replaceAt i edit).alive) : c ∈ s.alive ∨ c = (edit s.counter).1 := by
  rcases List.mem_append.1 h with hc | hc
  · rcases List.mem_or_eq_of_mem_set hc with hc | hc
    · exact .inl (List.mem_append_left _ hc)
    · exact .inr hc
  · exact .inl (List.mem_append_right _ hc)

/-- What is alive after a trajectory was linked was alive before, or it is an edited frame. -/
theorem mem_alive_linkAt {k i : Nat} {t : Trajectory α} (h : c ∈ (s.linkAt k t i).alive) :
    c ∈ s.alive ∨ c.typeTable = none := by
  unfold linkAt at h
  rcases t.setReference_cases i s.counter with ⟨e, he⟩ | ⟨f, hf⟩
  · rw [he] at h
    exact .inl h
  · rw [hf] at h
    rcases List.mem_append.1 h with hc | hc
    · exact .inl (List.mem_append_left _ hc)
    · obtain ⟨t', ht', hc⟩ := List.mem_flatMap.1 hc
      rcases List.mem_or_eq_of_mem_set ht' with ht' | rfl
      · exact .inl (mem_alive_of_frame ht' hc)
      · right
        refine Edit.forall_mem_mapM (fun c => c.typeTable = none) (fun c r => ?_)
          t.frames s.counter c hc
        rfl

variable [Scalar α]

/-- The type tables of all collections are current. -/
def HasCurrentTables (s : Session α) : Prop :=
  ∀ c ∈ s.alive, c.HasCurrentTable

/-- A sort keeps the type table of the collection that it is done to. -/
def Action.KeepsTables (s : Session α) : Action α → Prop
  | perform i op => ∀ c, s.collections[i]? = some c → op.KeepsTable c s.counter
  | derive i op => ∀ c, s.alive[i]? = some c → op.KeepsTable c s.counter
  | _ => True

omit [Scalar α] in
theorem mem_alive_iff : c ∈ s.alive ↔ c ∈ s.collections ∨ ∃ t ∈ s.trajectories, c ∈ t.frames := by
  simp [alive]

omit [Scalar α] in
/-- What is new to a session has a current table. -/
theorem HasCurrentTables.extend {s' : Session α} (h : s.HasCurrentTables)
    (hnew : ∀ c ∈ s'.alive, c ∈ s.alive ∨ c.HasCurrentTable) : s'.HasCurrentTables := by
  intro c hc
  rcases hnew c hc with hc | hcurrent
  · exact h c hc
  · exact hcurrent

/-- A collection that an operation makes in the place of another. -/
theorem hasCurrentTables_perform_iff (h : s.HasCurrentTables) {i : Nat}
    (hplace : s.collections[i]? = some c) (op : Collection.Operation α) :
    (s.replaceAt i (op.perform c)).HasCurrentTables ↔ op.KeepsTable c s.counter := by
  have hc := mem_alive_of_mem (List.mem_of_getElem? hplace)
  rw [← Collection.hasCurrentTable_perform_iff (h c hc) op s.counter]
  constructor
  · intro hafter
    obtain ⟨hi, -⟩ := List.getElem?_eq_some_iff.1 hplace
    exact hafter _ (mem_alive_of_mem (List.mem_set hi _))
  · intro hmade
    refine h.extend fun c' hc' => ?_
    rcases mem_alive_replaceAt hc' with hc' | rfl
    · exact .inl hc'
    · exact .inr hmade

/-- A collection that an operation makes beside the others. -/
theorem hasCurrentTables_derive_iff (h : s.HasCurrentTables) {i : Nat}
    (hplace : s.alive[i]? = some c) (op : Collection.Operation α) :
    (s.addMade (op.perform c)).HasCurrentTables ↔ op.KeepsTable c s.counter := by
  rw [← Collection.hasCurrentTable_perform_iff (h c (List.mem_of_getElem? hplace)) op s.counter]
  constructor
  · intro hafter
    exact hafter _ (mem_alive_addMade.2 (.inr rfl))
  · intro hmade
    refine h.extend fun c' hc' => ?_
    rcases mem_alive_addMade.1 hc' with hc' | rfl
    · exact .inl hc'
    · exact .inr hmade

/-- **What one action preserves.** -/
theorem hasCurrentTables_step_iff (h : s.HasCurrentTables) (action : Action α) :
    (s.step action).HasCurrentTables ↔ action.KeepsTables s := by
  cases action with
  | create atoms =>
    refine iff_of_true (h.extend fun c hc => ?_) trivial
    rcases mem_alive_addMade.1 hc with hc | rfl
    · exact .inl hc
    · exact .inr (Collection.hasCurrentTable_of_none rfl)
  | copy i =>
    refine iff_of_true (h.extend fun c hc => .inl ?_) trivial
    rcases mem_alive_iff.1 hc with hc | hc
    · rcases List.mem_append.1 hc with hc | hc
      · exact mem_alive_of_mem hc
      · exact List.mem_of_getElem? (Option.mem_toList.1 hc)
    · exact mem_alive_iff.2 (.inr hc)
  | discard i =>
    refine iff_of_true (h.extend fun c hc => .inl ?_) trivial
    rcases mem_alive_iff.1 hc with hc | hc
    · exact mem_alive_of_mem (List.mem_of_mem_eraseIdx hc)
    · exact mem_alive_iff.2 (.inr hc)
  | perform i op =>
    simp only [step, Action.KeepsTables]
    cases hplace : s.collections[i]? with
    | none =>
      refine iff_of_true h ?_
      intro c hc
      cases hc
    | some c => simpa using hasCurrentTables_perform_iff h hplace op
  | derive i op =>
    simp only [step, Action.KeepsTables]
    cases hplace : s.alive[i]? with
    | none =>
      refine iff_of_true h ?_
      intro c hc
      cases hc
    | some c => simpa using hasCurrentTables_derive_iff h hplace op
  | build i =>
    refine iff_of_true ?_ trivial
    simp only [step]
    cases s.alive[i]? with
    | none => exact h
    | some c => exact h
  | gather places =>
    refine iff_of_true (h.extend fun c hc => .inl ?_) trivial
    rcases mem_alive_iff.1 hc with hc | ⟨t, ht, hc⟩
    · exact mem_alive_of_mem hc
    · rcases List.mem_append.1 ht with ht | ht
      · exact mem_alive_of_frame ht hc
      · rw [List.mem_singleton.1 ht] at hc
        obtain ⟨i, -, hplace⟩ := List.mem_filterMap.1 hc
        exact List.mem_of_getElem? hplace
  | push k i =>
    refine iff_of_true ?_ trivial
    simp only [step]
    cases hk : s.trajectories[k]? with
    | none => exact h
    | some t =>
      cases hplace : s.alive[i]? with
      | none => exact h
      | some frame =>
        refine h.extend fun c hc => .inl ?_
        rcases mem_alive_iff.1 hc with hc | ⟨t', ht', hc⟩
        · exact mem_alive_of_mem hc
        · rcases List.mem_or_eq_of_mem_set ht' with ht' | rfl
          · exact mem_alive_of_frame ht' hc
          · rcases List.mem_append.1 hc with hc | hc
            · exact mem_alive_of_frame (List.mem_of_getElem? hk) hc
            · exact List.mem_singleton.1 hc ▸ List.mem_of_getElem? hplace
  | copyTrajectory k =>
    refine iff_of_true (h.extend fun c hc => .inl ?_) trivial
    rcases mem_alive_iff.1 hc with hc | ⟨t, ht, hc⟩
    · exact mem_alive_of_mem hc
    · rcases List.mem_append.1 ht with ht | ht
      · exact mem_alive_of_frame ht hc
      · exact mem_alive_of_frame (List.mem_of_getElem? (Option.mem_toList.1 ht)) hc
  | setReference k i =>
    refine iff_of_true ?_ trivial
    simp only [step]
    cases s.trajectories[k]? with
    | none => exact h
    | some t =>
      refine h.extend fun c hc => ?_
      rcases mem_alive_linkAt hc with hc | hnone
      · exact .inl hc
      · exact .inr (Collection.hasCurrentTable_of_none hnone)

omit [Scalar α] in
/-- What a rebuild would give is what the first atoms say. -/
theorem hasCurrentTables_iff : s.HasCurrentTables ↔
    ∀ c ∈ s.alive, ∀ table, c.typeTable = some table → ∀ element : String,
      table[element]? = (TypeTable.ofAtoms c.atoms)[element]? ∧
        table[element]? = firstRecord? c.atoms element := by
  constructor
  · intro h c hc table htable element
    have hentry := h c hc table htable element
    exact ⟨hentry, hentry.trans (TypeTable.getElem?_ofAtoms c.atoms element)⟩
  · intro h c hc table htable element
    exact (h c hc table htable element).1

/-- **Type tables are current at every moment of a run just when every sort in it keeps them**: a
sort has to leave the first atom of each element as it was, in mass and charge, unless there is no
table. Nothing else that can be done makes a table wrong. -/
theorem tables_current_iff_sorts_keep (actions : List (Action α)) :
    (∀ earlier, earlier <+: actions → ∀ c ∈ (run earlier).alive, ∀ table,
      c.typeTable = some table → ∀ element : String,
        table[element]? = (TypeTable.ofAtoms c.atoms)[element]? ∧
          table[element]? = firstRecord? c.atoms element) ↔
      ∀ earlier action, earlier ++ [action] <+: actions → action.KeepsTables (run earlier) := by
  have hstart : ({} : Session α).HasCurrentTables := by
    intro c hc
    simp [alive] at hc
  simp only [← hasCurrentTables_iff]
  exact forall_prefix_foldl_iff step HasCurrentTables Action.KeepsTables hstart
    fun _ action _ hs => hasCurrentTables_step_iff hs action

/-- Two carbon atoms of different masses. -/
def isotopes : List (Atom Double) :=
  [{ Atom.placed "C" ⟨0, 0, 0⟩ with id := 1, mass := 12.0 },
    { Atom.placed "C" ⟨1, 0, 0⟩ with id := 2, mass := 13.0 }]

/-- A type table is made, and the atoms are put into the other order. -/
def turnedIsotopes : List (Action Double) :=
  [.create isotopes, .perform 0 .rebuildTypeTable, .perform 0 (.sort .id true)]

theorem alive_turnedIsotopes : (run turnedIsotopes).alive =
    [⟨isotopes.reverse, {}, some (TypeTable.ofAtoms isotopes), 2⟩] := by
  have hsorted : (isotopes.mergeSort fun a b =>
      if true then SortKey.id.before b a else SortKey.id.before a b) = isotopes.reverse := by
    simp [isotopes, List.mergeSort, List.MergeSort.Internal.splitInTwo, SortKey.before]
  rw [← hsorted]
  rfl

/-- **The table of the atoms in the other order is still that of the first order.** -/
theorem exists_outdated_table :
    ∃ c ∈ (run turnedIsotopes).alive, ∃ table, c.typeTable = some table ∧
      table["C"]? ≠ (TypeTable.ofAtoms c.atoms)["C"]? := by
  refine ⟨⟨isotopes.reverse, {}, some (TypeTable.ofAtoms isotopes), 2⟩, ?_,
    TypeTable.ofAtoms isotopes, rfl, ?_⟩
  · rw [alive_turnedIsotopes]
    exact List.mem_singleton_self _
  · intro hsame
    rw [TypeTable.getElem?_ofAtoms, TypeTable.getElem?_ofAtoms] at hsame
    have hmass : (12.0 : Double) = 13.0 := congrArg TypeEntry.mass (Option.some.inj hsame)
    have hbits : (12.0 : Double).bits ≠ (13.0 : Double).bits := by decide +kernel
    exact hbits (congrArg Double.bits hmass)

end Session

end Honeycomb
