import Mathlib

/-!
# Lists of blocks, lists with marks, repetitions, and runs

* `getElem?_flatMap_of_length` — an entry of a list of blocks of one length is an entry of a block.
  `flatMap_filter_of_blocks` — the elements of each key are one of the blocks.
* `map_zipWith_of_forall`, `map_mapIdx_of_forall` — what marking the elements of a list does not
  touch stays; `map_zipWith_eq_marks` — the marks are seen again.
* `nodup_eraseDups` — leaving out repetitions leaves none.
* `forall_prefix_foldl_iff` — what holds at every moment of a run.
-/

set_option autoImplicit false

namespace Honeycomb

theorem getElem?_flatMap_of_length {β γ : Type} {f : β → List γ} {n k : Nat}
    (hf : ∀ x, (f x).length = n) (hk : k < n) : ∀ (xs : List β) (i : Nat),
      (xs.flatMap f)[n * i + k]? = xs[i]?.bind fun x => (f x)[k]?
  | [], i => by simp
  | x :: xs, 0 => by simp [List.getElem?_append_left, hf, hk]
  | x :: xs, i + 1 => by
    have hlen : n * (i + 1) + k = (f x).length + (n * i + k) := by
      rw [hf]
      ring
    rw [List.flatMap_cons, hlen, List.getElem?_append_right (by omega), Nat.add_sub_cancel_left,
      getElem?_flatMap_of_length hf hk xs i, List.getElem?_cons_succ]

/-- Elements whose keys come in blocks of one size, the first of key one, the next of key two, and so
on: the elements of each key are one block, and the blocks make up the list. -/
theorem flatMap_filter_of_blocks {β : Type} {key : β → Nat} {size : Nat} :
    ∀ {n : Nat} {xs : List β},
      xs.map key = ((List.range n).flatMap fun i => List.replicate size (i + 1)) →
        ((List.range n).flatMap fun i => xs.filter (key · == i + 1)) = xs ∧
          ∀ i < n, (xs.filter (key · == i + 1)).length = size
  | 0, xs, h => by
    have hnil : xs = [] := by simpa using h
    subst hnil
    exact ⟨rfl, fun i hi => absurd hi (Nat.not_lt_zero i)⟩
  | n + 1, xs, h => by
    rw [List.range_succ, List.flatMap_append, List.flatMap_singleton] at h
    obtain ⟨ys, zs, rfl, hys, hzs⟩ := List.map_eq_append_iff.1 h
    obtain ⟨hblocks, hsizes⟩ := flatMap_filter_of_blocks hys
    -- the last block has a key of its own, so that it can be told from all before
    have hlow : ∀ y ∈ ys, key y ≤ n := by
      intro y hy
      have hmem : key y ∈ ys.map key := List.mem_map_of_mem hy
      rw [hys] at hmem
      obtain ⟨i, hi, hkey⟩ := List.mem_flatMap.1 hmem
      rw [List.eq_of_mem_replicate hkey]
      exact List.mem_range.1 hi
    have hlast : ∀ z ∈ zs, key z = n + 1 := by
      intro z hz
      have hmem : key z ∈ zs.map key := List.mem_map_of_mem hz
      rw [hzs] at hmem
      exact List.eq_of_mem_replicate hmem
    have hearlier : ∀ i < n, (ys ++ zs).filter (key · == i + 1) = ys.filter (key · == i + 1) := by
      intro i hi
      have hnone : zs.filter (key · == i + 1) = [] := by
        apply List.filter_eq_nil_iff.2
        intro z hz
        have := hlast z hz
        simp
        omega
      rw [List.filter_append, hnone, List.append_nil]
    have hblock : (ys ++ zs).filter (key · == n + 1) = zs := by
      have hnone : ys.filter (key · == n + 1) = [] := by
        apply List.filter_eq_nil_iff.2
        intro y hy
        have := hlow y hy
        simp
        omega
      have hall : zs.filter (key · == n + 1) = zs := by
        apply List.filter_eq_self.2
        intro z hz
        simp [hlast z hz]
      rw [List.filter_append, hnone, hall, List.nil_append]
    refine ⟨?_, ?_⟩
    · rw [List.range_succ, List.flatMap_append, List.flatMap_singleton, hblock]
      congr 1
      conv_rhs => rw [← hblocks]
      rw [List.flatMap_def, List.flatMap_def]
      congr 1
      apply List.map_congr_left
      intro i hi
      exact hearlier i (List.mem_range.1 hi)
    · intro i hi
      rcases Nat.lt_succ_iff_lt_or_eq.1 hi with hi | rfl
      · rw [hearlier i hi]
        exact hsizes i hi
      · rw [hblock]
        simpa using congrArg List.length hzs

/-- A view of the elements that their marks do not show in is the same before and after. -/
theorem map_zipWith_of_forall {β γ δ : Type} {mark : β → γ → β} {view : β → δ}
    (hview : ∀ x m, view (mark x m) = view x) :
    ∀ {xs : List β} {marks : List γ}, marks.length = xs.length →
      (xs.zipWith mark marks).map view = xs.map view
  | [], _, _ => by simp
  | x :: xs, m :: marks, h => by
    rw [List.zipWith_cons_cons, List.map_cons, List.map_cons, hview,
      map_zipWith_of_forall hview (Nat.succ.inj h)]

/-- A view that shows the mark of an element shows all marks. -/
theorem map_zipWith_eq_marks {β γ : Type} {mark : β → γ → β} {view : β → γ}
    (hview : ∀ x m, view (mark x m) = m) :
    ∀ {xs : List β} {marks : List γ}, marks.length = xs.length →
      (xs.zipWith mark marks).map view = marks
  | [], [], _ => rfl
  | x :: xs, m :: marks, h => by
    rw [List.zipWith_cons_cons, List.map_cons, hview,
      map_zipWith_eq_marks hview (Nat.succ.inj h)]

theorem map_mapIdx_of_forall {β γ : Type} {mark : Nat → β → β} {view : β → γ}
    (hview : ∀ i x, view (mark i x) = view x) (xs : List β) :
    (xs.mapIdx mark).map view = xs.map view :=
  List.ext_getElem (by simp) fun i _ _ => by simp [hview]

/-- A partial function is defined on all elements of a list when its values are as many. -/
theorem map_eq_map_some_iff {β γ : Type} {f : β → Option γ} {xs : List β} {ys : List γ} :
    xs.map f = ys.map some ↔ xs.filterMap f = ys ∧ ∀ x ∈ xs, f x ≠ none := by
  induction xs generalizing ys with
  | nil => cases ys <;> simp
  | cons x xs ih =>
    rw [List.forall_mem_cons, List.map_cons]
    cases hx : f x with
    | none => cases ys <;> simp
    | some y =>
      rw [List.filterMap_cons_some hx]
      cases ys with
      | nil => simp
      | cons z ys => simp [ih, and_assoc]

/-- What is left without repetitions has none. -/
theorem nodup_eraseDups {β : Type} [DecidableEq β] : ∀ xs : List β, xs.eraseDups.Nodup
  | [] => List.nodup_nil
  | x :: xs => by
    rw [List.eraseDups_cons, List.nodup_cons]
    refine ⟨?_, nodup_eraseDups (xs.filter fun y => !y == x)⟩
    simp [List.mem_eraseDups]
termination_by xs => xs.length
decreasing_by exact Nat.lt_succ_of_le (List.length_filter_le _ _)

/-- If each step of a run keeps a property just when it is harmless, then the property holds at
every moment of the run just when every step is harmless. -/
theorem forall_prefix_foldl_iff {σ ι : Type} (step : σ → ι → σ) (holds : σ → Prop)
    (harmless : σ → ι → Prop) {actions : List ι} {start : σ} (hstart : holds start)
    (hstep : ∀ earlier x, earlier ++ [x] <+: actions → holds (earlier.foldl step start) →
      (holds (step (earlier.foldl step start) x) ↔ harmless (earlier.foldl step start) x)) :
    (∀ earlier, earlier <+: actions → holds (earlier.foldl step start)) ↔
      ∀ earlier x, earlier ++ [x] <+: actions → harmless (earlier.foldl step start) x := by
  constructor
  · intro h earlier x hx
    have hearlier := h earlier ((List.prefix_append earlier [x]).trans hx)
    rw [← hstep earlier x hx hearlier]
    simpa using h _ hx
  · intro h earlier
    induction earlier using List.reverseRecOn with
    | nil => exact fun _ => hstart
    | append_singleton earlier x ih =>
      intro hx
      have hearlier := ih ((List.prefix_append earlier [x]).trans hx)
      rw [List.foldl_append, List.foldl_cons, List.foldl_nil, hstep earlier x hx hearlier]
      exact h earlier x hx

end Honeycomb
