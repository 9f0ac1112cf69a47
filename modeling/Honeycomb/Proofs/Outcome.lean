import Mathlib.Data.List.Forall2

/-!
# Steps that can fail

* `map_eq_ok_iff`, `bind_eq_ok_iff` — a step after another one succeeds just when both do.
* `mapM_eq_ok_iff`, `exists_mapM_eq_ok_iff`, `mapM_eq_error_iff` — steps on the elements of a list
  succeed just when each of them does, and fail as the first of them that fails.
* `map_eq_error_iff` — a step that cannot fail itself leaves failures as they are.
* `toOption_map`, `toOption_bind`, `toOption_eq_some_iff` — what is left of a step when nobody looks
  at how it fails.
-/

set_option autoImplicit false

namespace Honeycomb

variable {ε β γ : Type} {x : Except ε β} {c : γ}

theorem map_eq_ok_iff {f : β → γ} : x.map f = .ok c ↔ ∃ b, x = .ok b ∧ f b = c := by
  cases x with
  | error e => simp [Except.map]
  | ok b => simp [Except.map]

theorem map_eq_error_iff {f : β → γ} {e : ε} : x.map f = .error e ↔ x = .error e := by
  cases x with
  | error e' => simp [Except.map]
  | ok b => simp [Except.map]

theorem bind_eq_ok_iff {f : β → Except ε γ} : x >>= f = .ok c ↔ ∃ b, x = .ok b ∧ f b = .ok c := by
  cases x with
  | error e => simp [bind, Except.bind]
  | ok b => simp [bind, Except.bind]

theorem mapM_eq_ok_iff {f : β → Except ε γ} {xs : List β} {ys : List γ} :
    xs.mapM f = .ok ys ↔ List.Forall₂ (fun x y => f x = .ok y) xs ys := by
  induction xs generalizing ys with
  | nil => simp [pure, Except.pure, eq_comm]
  | cons x xs ih =>
    rw [List.mapM_cons, bind_eq_ok_iff, List.forall₂_cons_left_iff]
    refine exists_congr fun y => ?_
    rw [bind_eq_ok_iff]
    constructor
    · rintro ⟨hy, more, hmore, heq⟩
      cases heq
      exact ⟨more, hy, ih.1 hmore, rfl⟩
    · rintro ⟨more, hy, hmore, rfl⟩
      exact ⟨hy, more, ih.2 hmore, rfl⟩

theorem exists_mapM_eq_ok_iff {f : β → Except ε γ} {xs : List β} :
    (∃ ys, xs.mapM f = .ok ys) ↔ ∀ x ∈ xs, ∃ y, f x = .ok y := by
  induction xs with
  | nil => simp [pure, Except.pure]
  | cons x xs ih =>
    simp only [mapM_eq_ok_iff] at ih ⊢
    rw [List.forall_mem_cons, ← ih]
    constructor
    · rintro ⟨_, h⟩
      obtain ⟨y, ys, hx, hys, rfl⟩ := List.forall₂_cons_left_iff.1 h
      exact ⟨⟨y, hx⟩, ys, hys⟩
    · rintro ⟨⟨y, hx⟩, ys, hys⟩
      exact ⟨y :: ys, .cons hx hys⟩

/-- **The first step that fails decides.** -/
theorem mapM_eq_error_iff {f : β → Except ε γ} {xs : List β} {e : ε} :
    xs.mapM f = .error e ↔ ∃ before x after, xs = before ++ x :: after ∧
      (∀ y ∈ before, ∃ b, f y = .ok b) ∧ f x = .error e := by
  induction xs with
  | nil => simp [pure, Except.pure]
  | cons x xs ih =>
    rw [List.mapM_cons]
    cases hx : f x with
    | error e' =>
      constructor
      · intro h
        cases h
        exact ⟨[], x, xs, rfl, by simp, hx⟩
      · rintro ⟨before, y, after, heq, hbefore, hy⟩
        rw [List.cons_eq_append_iff] at heq
        obtain ⟨rfl, heq⟩ | ⟨before, rfl, rfl⟩ := heq
        · cases heq
          obtain rfl : e' = e := Except.error.inj (hx.symm.trans hy)
          rfl
        · obtain ⟨b, hb⟩ := hbefore x List.mem_cons_self
          cases hx.symm.trans hb
    | ok b =>
      have hrest : (Except.ok b >>= fun b => xs.mapM f >>= fun bs => pure (b :: bs)) = .error e ↔
          xs.mapM f = .error e :=
        map_eq_error_iff
      rw [hrest, ih]
      constructor
      · rintro ⟨before, y, after, rfl, hbefore, hy⟩
        exact ⟨x :: before, y, after, rfl, List.forall_mem_cons.2 ⟨⟨b, hx⟩, hbefore⟩, hy⟩
      · rintro ⟨before, y, after, heq, hbefore, hy⟩
        rw [List.cons_eq_append_iff] at heq
        obtain ⟨rfl, heq⟩ | ⟨before, rfl, rfl⟩ := heq
        · cases heq
          cases hx.symm.trans hy
        · exact ⟨before, y, after, rfl, (List.forall_mem_cons.1 hbefore).2, hy⟩

theorem toOption_eq_some_iff {b : β} : x.toOption = some b ↔ x = .ok b := by
  cases x with
  | error e => simp [Except.toOption]
  | ok b => simp [Except.toOption]

theorem toOption_map (f : β → γ) : (x.map f).toOption = x.toOption.map f := by
  cases x with
  | error e => rfl
  | ok b => rfl

theorem toOption_bind (f : β → Except ε γ) :
    (x >>= f).toOption = x.toOption.bind fun b => (f b).toOption := by
  cases x with
  | error e => rfl
  | ok b => rfl

end Honeycomb
