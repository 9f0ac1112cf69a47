/-!
# Binary heaps

A binary heap in an array: the element at `i` stands above those at `2 * i + 1` and `2 * i + 2`,
and the greatest of all is in front. The order of equal elements is settled by the moves below.

* `Heap.siftUp`, `Heap.siftDown`, `Heap.sink` — an element is moved to where it belongs.
* `Heap.push`, `Heap.pop?` — one more element; the greatest one taken out.
* `Heap.ascending` — the elements in ascending order, taken out from the greatest down.

Main statements: `Heap.push_perm`, `Heap.pop?_perm` and `Heap.ascending_perm`, no move loses or
makes an element.
-/

set_option autoImplicit false

namespace Honeycomb.Heap

variable {β : Type} (le : β → β → Bool)

/-- Moves the element at `i` up as long as the one above it is less. -/
@[specialize]
def siftUp (heap : Array β) (i : Nat) : Array β :=
  if h : 0 < i ∧ i < heap.size then
    have : (i - 1) / 2 < heap.size := by omega
    if le heap[i] heap[(i - 1) / 2] then heap
    else siftUp (heap.swap i ((i - 1) / 2)) ((i - 1) / 2)
  else heap
termination_by i

/-- One more element. -/
@[specialize]
def push (heap : Array β) (a : β) : Array β :=
  siftUp le (heap.push a) heap.size

/-- The place of the greater element below `i` among the first `stop`, the second one of equals. -/
@[specialize]
def childAt? (heap : Array β) (stop i : Nat) : Option Nat :=
  if h : 2 * i + 2 < stop ∧ stop ≤ heap.size then
    if le heap[2 * i + 1] heap[2 * i + 2] then some (2 * i + 2) else some (2 * i + 1)
  else if 2 * i + 1 < stop ∧ stop ≤ heap.size then some (2 * i + 1)
  else none

/-- The element below is further back, and among the first `stop`. -/
theorem childAt?_bounds {heap : Array β} {stop i child : Nat}
    (h : childAt? le heap stop i = some child) : i < child ∧ child < stop ∧ stop ≤ heap.size := by
  unfold childAt? at h
  split at h
  · split at h <;> cases h <;> omega
  · split at h
    · cases h
      omega
    · cases h

/-- Moves the element at `i` down among the first `stop` as long as one below it is greater. -/
@[specialize]
def siftDown (heap : Array β) (stop i : Nat) : Array β :=
  match h : childAt? le heap stop i with
  | none => heap
  | some child =>
    have := childAt?_bounds le h
    have : i < heap.size := by omega
    have : child < heap.size := by omega
    if le heap[child] heap[i] then heap else siftDown (heap.swap i child) stop child
termination_by stop - i

/-- Moves the element at `i` all the way down, along the greater elements, and then up to where it
belongs. -/
@[specialize]
def sink (heap : Array β) (i : Nat) : Array β :=
  match h : childAt? le heap heap.size i with
  | none => siftUp le heap i
  | some child =>
    have := childAt?_bounds le h
    have : i < heap.size := by omega
    have : child < heap.size := by omega
    sink (heap.swap i child) child
termination_by heap.size - i
decreasing_by
  rw [Array.size_swap]
  omega

/-- The greatest element, and the heap without it. -/
@[specialize]
def pop? (heap : Array β) : Option (β × Array β) :=
  match heap.back? with
  | none => none
  | some last =>
    match heap.pop[0]? with
    | none => some (last, heap.pop)
    | some greatest => some (greatest, sink le (heap.pop.setIfInBounds 0 last) 0)

/-- Takes the greatest of the first `stop + 1` elements to their end, then the greatest of those in
front of it, and so on. -/
@[specialize]
def drain (heap : Array β) : Nat → Array β
  | 0 => heap
  | stop + 1 => drain (siftDown le (heap.swapIfInBounds 0 (stop + 1)) (stop + 1) 0) stop

/-- The elements of a heap in ascending order. -/
@[specialize]
def ascending (heap : Array β) : List β :=
  (drain le heap (heap.size - 1)).toList

theorem siftUp_perm (heap : Array β) (i : Nat) : (siftUp le heap i).Perm heap := by
  induction heap, i using siftUp.induct le with
  | case1 heap i h _ hle =>
    rw [siftUp, dif_pos h, if_pos hle]
  | case2 heap i h _ hle ih =>
    rw [siftUp, dif_pos h, if_neg hle]
    exact ih.trans (Array.swap_perm _ _)
  | case3 heap i h =>
    rw [siftUp, dif_neg h]

theorem push_perm (heap : Array β) (a : β) : (push le heap a).toList.Perm (a :: heap.toList) := by
  have h := (siftUp_perm le (heap.push a) heap.size).toList
  rw [Array.toList_push] at h
  exact h.trans (List.perm_append_singleton a heap.toList)

theorem siftDown_perm (heap : Array β) (stop i : Nat) : (siftDown le heap stop i).Perm heap := by
  induction hn : stop - i using Nat.strongRecOn generalizing heap i with
  | ind n ih =>
    rw [siftDown]
    split
    · exact Array.Perm.refl _
    · next child hchild =>
      have hbounds := childAt?_bounds le hchild
      dsimp only
      split
      · exact Array.Perm.refl _
      · exact (ih (stop - child) (by omega) _ child rfl).trans (Array.swap_perm _ _)

theorem sink_perm (heap : Array β) (i : Nat) : (sink le heap i).Perm heap := by
  induction hn : heap.size - i using Nat.strongRecOn generalizing heap i with
  | ind n ih =>
    rw [sink]
    split
    · exact siftUp_perm le heap i
    · next child hchild =>
      have hbounds := childAt?_bounds le hchild
      exact (ih _ (by rw [Array.size_swap]; omega) _ child rfl).trans (Array.swap_perm _ _)

/-- What is taken out and what remains make up the heap. -/
theorem pop?_perm {heap rest : Array β} {greatest : β}
    (h : pop? le heap = some (greatest, rest)) : (greatest :: rest.toList).Perm heap.toList := by
  unfold pop? at h
  split at h
  · cases h
  · next last hlast =>
    have hheap : heap.toList = heap.pop.toList ++ [last] := by
      obtain ⟨l⟩ := heap
      obtain ⟨front, rfl⟩ := List.getLast?_eq_some_iff.mp (by simpa using hlast)
      simp
    have hfront : heap.pop[0]? = heap.pop.toList[0]? := Array.getElem?_toList.symm
    rw [hfront] at h
    rcases hpop : heap.pop.toList with _ | ⟨first, tail⟩
    · rw [hpop] at h hheap
      cases h
      rw [hpop, hheap, List.nil_append]
    · rw [hpop] at h hheap
      cases h
      have hset : (heap.pop.setIfInBounds 0 last).toList = last :: tail := by
        rw [Array.toList_setIfInBounds, hpop, List.set_cons_zero]
      have hsink := (sink_perm le (heap.pop.setIfInBounds 0 last) 0).toList
      rw [hset] at hsink
      rw [hheap, List.cons_append]
      exact (hsink.trans (List.perm_append_singleton last tail).symm).cons _

theorem drain_perm (heap : Array β) (stop : Nat) : (drain le heap stop).Perm heap := by
  induction stop generalizing heap with
  | zero => exact Array.Perm.refl _
  | succ stop ih =>
    refine (ih _).trans ((siftDown_perm le _ _ _).trans ?_)
    unfold Array.swapIfInBounds
    split
    · split
      · exact Array.swap_perm _ _
      · exact Array.Perm.refl _
    · exact Array.Perm.refl _

/-- The ascending order neither loses nor makes an element. -/
theorem ascending_perm (heap : Array β) : (ascending le heap).Perm heap.toList :=
  (drain_perm le heap (heap.size - 1)).toList

/-- The order of equal elements is the one of the moves: here the pairs are compared by their first
components only. -/
example :
    let le (a b : Nat × Char) : Bool := a.1 ≤ b.1
    ascending le ([(0, 'a'), (9, 'b'), (9, 'c'), (0, 'd')].foldl (push le) #[]) =
      [(0, 'a'), (0, 'd'), (9, 'c'), (9, 'b')] := by decide +kernel

end Honeycomb.Heap
