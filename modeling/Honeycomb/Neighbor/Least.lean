/-!
# The least elements of a list

* `insertBefore` — a sorted list with one more element, in front of the equal ones.
* `leastFrom` — the `k` least elements in order, found without sorting the others. The work grows
  with `k`.
* `least` — the same elements, by insertion when they are few and by sorting otherwise.

Main statement: `least_eq_take_mergeSort`, the least elements are the first ones of the sorted
list, so that of equal elements the earlier ones are taken and come first.
-/

set_option autoImplicit false

namespace Honeycomb

variable {β : Type} {le : β → β → Bool}

/-- A sorted list with one more element, in front of the first one that is not below it. -/
def insertBefore (le : β → β → Bool) (a : β) : List β → List β
  | [] => [a]
  | b :: rest => if le a b then a :: b :: rest else b :: insertBefore le a rest

/-- A list in descending order with one more element, behind those that are not below it. -/
@[specialize]
def insertBehind (le : β → β → Bool) (a : β) : List β → List β
  | [] => [a]
  | b :: rest => if le a b then b :: insertBehind le a rest else a :: b :: rest

/-- Elements in descending order, with a new one in place of the first when it is not above
that. -/
@[inline]
def replaceWorst (le : β → β → Bool) (kept : List β) (a : β) : List β :=
  match kept with
  | [] => []
  | worst :: others => if le a worst then insertBehind le a others else kept

/-- Goes through candidates from the last to the first. So far `count` elements are kept, `k` at
most, in descending order. -/
@[specialize]
def leastFrom {γ : Type} (le : β → β → Bool) (k : Nat) (f : γ → Option β) :
    List γ → Nat → List β → List β
  | [], _, kept => kept.reverse
  | c :: rest, count, kept =>
    match f c with
    | none => leastFrom le k f rest count kept
    | some a =>
      if count < k then leastFrom le k f rest (count + 1) (insertBehind le a kept)
      else leastFrom le k f rest count (replaceWorst le kept a)

/-- The `k` least of the elements that candidates lead to, in order; of equal ones the earlier come
first. -/
@[specialize]
def least {γ : Type} (le : β → β → Bool) (k : Nat) (f : γ → Option β) (candidates : List γ) :
    List β :=
  if k ≤ 64 then leastFrom le k f candidates.reverse 0 []
  else ((candidates.filterMap f).mergeSort le).take k

/-- An element is put between those above which it is and those it is not above. -/
theorem insertBefore_append {a : β} {s t : List β} (hs : ∀ b ∈ s, le a b = false)
    (ht : ∀ b ∈ t, le a b = true) : insertBefore le a (s ++ t) = s ++ a :: t := by
  induction s with
  | nil =>
    cases t with
    | nil => rfl
    | cons b rest => simp [insertBefore, ht b List.mem_cons_self]
  | cons b rest ih =>
    rw [List.cons_append, insertBefore, hs b List.mem_cons_self, if_neg Bool.false_ne_true,
      ih fun c hc => hs c (List.mem_cons_of_mem b hc), List.cons_append]

/-- The same in descending order. -/
theorem insertBehind_append {a : β} {s t : List β} (hs : ∀ b ∈ s, le a b = true)
    (ht : ∀ b ∈ t, le a b = false) : insertBehind le a (s ++ t) = s ++ a :: t := by
  induction s with
  | nil =>
    cases t with
    | nil => rfl
    | cons b rest => simp [insertBehind, ht b List.mem_cons_self]
  | cons b rest ih =>
    rw [List.cons_append, insertBehind, hs b List.mem_cons_self, if_pos rfl,
      ih fun c hc => hs c (List.mem_cons_of_mem b hc), List.cons_append]

/-- Up to an element that a new one is not above, the new one takes one place. -/
theorem take_insertBefore_of_le {a : β} {k : Nat} {s : List β} (hk : k < s.length)
    (h : le a s[k] = true) : (insertBefore le a s).take (k + 1) = insertBefore le a (s.take k) := by
  induction s generalizing k with
  | nil => cases hk
  | cons b rest ih =>
    rcases hab : le a b with _ | _
    · cases k with
      | zero => simp [hab] at h
      | succ k =>
        simp only [List.length_cons, Nat.add_lt_add_iff_right] at hk
        simp [insertBefore, hab, ih hk (by simpa using h)]
    · cases k with
      | zero => simp [insertBefore, hab]
      | succ k => simp [insertBefore, hab]

/-- An element above the first `k` others does not change them. -/
theorem take_insertBefore_of_above {a : β} {k : Nat} {s : List β} (hk : k ≤ s.length)
    (h : ∀ b ∈ s.take k, le a b = false) : (insertBefore le a s).take k = s.take k := by
  induction s generalizing k with
  | nil =>
    have : k = 0 := Nat.le_zero.mp hk
    simp [this]
  | cons b rest ih =>
    cases k with
    | zero => simp
    | succ k =>
      simp only [List.length_cons, Nat.add_le_add_iff_right] at hk
      simp only [List.take_succ_cons, List.mem_cons, forall_eq_or_imp] at h
      simp [insertBefore, h.1, ih hk h.2]

section Sorted

variable (trans : ∀ a b c, le a b = true → le b c = true → le a c = true)
variable (total : ∀ a b, (le a b || le b a) = true)

include trans

/-- A sorted list is cut by an element into those above which it is and those it is not
above. -/
theorem exists_cut (a : β) {s : List β} (hs : s.Pairwise fun a b => le a b = true) :
    ∃ lo hi, s = lo ++ hi ∧ (∀ b ∈ lo, le a b = false) ∧ ∀ b ∈ hi, le a b = true := by
  induction s with
  | nil => exact ⟨[], [], rfl, by simp, by simp⟩
  | cons b rest ih =>
    obtain ⟨hb, hrest⟩ := List.pairwise_cons.mp hs
    rcases hab : le a b with _ | _
    · obtain ⟨lo, hi, rfl, hlo, hhi⟩ := ih hrest
      exact ⟨b :: lo, hi, rfl, by simpa [hab] using hlo, hhi⟩
    · refine ⟨[], b :: rest, rfl, by simp, fun c hc => ?_⟩
      rcases List.mem_cons.mp hc with rfl | hc
      · exact hab
      · exact trans a b c hab (hb c hc)

/-- The two ways to put an element into a sorted list agree. -/
theorem insertBehind_reverse (a : β) {s : List β} (hs : s.Pairwise fun a b => le a b = true) :
    insertBehind le a s.reverse = (insertBefore le a s).reverse := by
  obtain ⟨lo, hi, rfl, hlo, hhi⟩ := exists_cut trans a hs
  rw [insertBefore_append hlo hhi, List.reverse_append,
    insertBehind_append (by simpa using hhi) (by simpa using hlo)]
  simp

/-- When `k` elements are kept of a sorted list, the worst of them gives way to a new element as
if that had been put into the whole list. -/
theorem replaceWorst_take (a : β) {k : Nat} {s : List β} (hk : k ≤ s.length)
    (hs : s.Pairwise fun a b => le a b = true) :
    replaceWorst le (s.take k).reverse a = ((insertBefore le a s).take k).reverse := by
  cases k with
  | zero => simp [replaceWorst]
  | succ k =>
    have hlast : k < s.length := hk
    have htake : (s.take (k + 1)).reverse = s[k] :: (s.take k).reverse := by
      rw [List.take_succ_eq_append_getElem hlast, List.reverse_append, List.reverse_singleton,
        List.singleton_append]
    rcases hab : le a s[k] with _ | _
    · have habove : ∀ b ∈ s.take (k + 1), le a b = false := by
        intro b hb
        rw [List.take_succ_eq_append_getElem hlast, List.mem_append, List.mem_singleton] at hb
        rcases hb with hb | rfl
        · have hsorted := hs.sublist (List.take_sublist (k + 1) s)
          rw [List.take_succ_eq_append_getElem hlast] at hsorted
          have hle := (List.pairwise_append.mp hsorted).2.2 b hb s[k] List.mem_cons_self
          rcases h : le a b with _ | _
          · rfl
          · exact absurd (trans a b s[k] h hle) (by simp [hab])
        · exact hab
      rw [take_insertBefore_of_above hk habove, htake, replaceWorst, hab,
        if_neg Bool.false_ne_true]
    · rw [htake, replaceWorst, if_pos hab, take_insertBefore_of_le hlast hab,
        insertBehind_reverse trans a (hs.sublist (List.take_sublist k s))]

include total

/-- Sorting a list with one more element in front puts it into the sorted rest. -/
theorem mergeSort_cons_eq (a : β) (l : List β) :
    (a :: l).mergeSort le = insertBefore le a (l.mergeSort le) := by
  obtain ⟨s, t, hcons, hrest, hs⟩ := List.mergeSort_cons trans total a l
  have hsorted := List.pairwise_mergeSort trans total (a :: l)
  rw [hcons] at hsorted
  rw [hcons, hrest, insertBefore_append]
  · exact fun b hb => by simpa using hs b hb
  · exact (List.pairwise_cons.mp (List.pairwise_append.mp hsorted).2.1).1

/-- When the `k` least of some elements are kept, going through more candidates keeps the `k` least
of all. -/
theorem leastFrom_eq {γ : Type} (k : Nat) (f : γ → Option β) (candidates : List γ)
    (others : List β) :
    leastFrom le k f candidates (min k others.length) ((others.mergeSort le).take k).reverse =
      ((candidates.reverse.filterMap f ++ others).mergeSort le).take k := by
  induction candidates generalizing others with
  | nil => simp [leastFrom]
  | cons c rest ih =>
    rw [leastFrom]
    rcases hc : f c with _ | a
    · simp [ih, hc]
    · have hnext := ih (a :: others)
      have hsorted := List.pairwise_mergeSort trans total others
      have hlength : (others.mergeSort le).length = others.length := List.length_mergeSort others
      rw [List.length_cons, mergeSort_cons_eq trans total] at hnext
      simp only [List.reverse_cons, List.filterMap_append, List.filterMap_cons, hc,
        List.filterMap_nil, List.append_assoc, List.singleton_append]
      rw [← hnext]
      split
      · next hfew =>
        have hall : (insertBefore le a (others.mergeSort le)).length ≤ k := by
          rw [← mergeSort_cons_eq trans total, List.length_mergeSort, List.length_cons]
          omega
        rw [List.take_of_length_le (by omega), List.take_of_length_le hall,
          insertBehind_reverse trans a hsorted]
        congr 1
        omega
      · next hfull =>
        rw [replaceWorst_take trans a (by omega) hsorted]
        congr 1
        omega

/-- The least elements are the first ones of the sorted list. -/
theorem least_eq_take_mergeSort {γ : Type} (k : Nat) (f : γ → Option β) (candidates : List γ) :
    least le k f candidates = ((candidates.filterMap f).mergeSort le).take k := by
  unfold least
  split
  · have h := leastFrom_eq trans total k f candidates.reverse []
    simpa using h
  · rfl

end Sorted

end Honeycomb
