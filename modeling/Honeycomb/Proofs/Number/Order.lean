import Mathlib
import Honeycomb.Proofs.Number.Real

/-!
# The order of scalars

What comparisons promise although some numbers compare with nothing.

* `OrderedScalar` — a number that is at most another is not above it, and comparisons are
  transitive.
* `orderKey?` — the place of a float among all numbers; what is not a number has none.
  `compare_eq` — floats compare as their places do.

Principal result: the instances of `OrderedScalar` on doubles and on real numbers.
-/

set_option autoImplicit false

namespace Honeycomb

/-- Comparisons as the numbers define them are those of an order, as far as they go. -/
class OrderedScalar (α : Type) [Scalar α] : Prop where
  not_lt_of_le : ∀ {a b : α}, a ≤ b → ¬b < a
  le_trans : ∀ {a b c : α}, a ≤ b → b ≤ c → a ≤ c

instance : OrderedScalar ℝ where
  not_lt_of_le := not_lt_of_ge
  le_trans hab hbc := hab.trans hbc

/-! ## Doubles -/

open Float.Model

/-- The place of a float among all numbers: its kind, its exponent and its mantissa. -/
def orderKey? : UnpackedFloat → Option (Int ×ₗ Int ×ₗ Int)
  | .notANumber => none
  | .infinity .negative => some (toLex (-2, toLex (0, 0)))
  | .finite .negative m e _ => some (toLex (-1, toLex (-e, -m)))
  | .zero _ => some (toLex (0, toLex (0, 0)))
  | .finite .positive m e _ => some (toLex (1, toLex (e, m)))
  | .infinity .positive => some (toLex (2, toLex (0, 0)))

theorem compare_natCast (m m' : Nat) : compare (m : Int) (m' : Int) = compare m m' := by
  change compareOfLessAndEq (m : Int) m' = compareOfLessAndEq m m'
  simp [compareOfLessAndEq]

theorem compare_neg_neg (a b : Int) : compare (-a) (-b) = (compare a b).swap := by
  rw [Int.compare_swap]
  change compareOfLessAndEq (-a) (-b) = compareOfLessAndEq b a
  simp [compareOfLessAndEq, eq_comm]

/-- **Floats compare as their places do.** -/
theorem compare_eq (x y : UnpackedFloat) :
    x.compare y = (orderKey? x).bind fun k => (orderKey? y).map fun l => compare k l := by
  -- only two finite numbers of one sign are compared by their parts
  rcases x with (_ | _) | _ | _ | ⟨_ | _, m, e, h⟩ <;>
    rcases y with (_ | _) | _ | _ | ⟨_ | _, m', e', h'⟩ <;>
      try rfl
  · change some ((compare e e').then (compare m m')).swap =
      some ((compare (-e) (-e')).then (compare (-(m : Int)) (-(m' : Int))))
    rw [compare_neg_neg, compare_neg_neg, compare_natCast, Ordering.swap_then]
  · change some ((compare e e').then (compare m m')) =
      some ((compare e e').then (compare (m : Int) (m' : Int)))
    rw [compare_natCast]

namespace Double

/-- The place of a double among all numbers. -/
def key? (a : Double) : Option (Int ×ₗ Int ×ₗ Int) :=
  orderKey? a.toFloat.toModel.unpack

theorem le_iff {a b : Double} : a ≤ b ↔ ∃ k ∈ a.key?, ∃ l ∈ b.key?, k ≤ l := by
  have h : a ≤ b ↔ (a.toFloat.toModel.unpack.compare b.toFloat.toModel.unpack).any (·.isLE) := by
    change Float.le _ _ = true ↔ _
    unfold Float.le
    rw [decide_eq_true_iff]
    rfl
  rw [h, compare_eq]
  unfold key?
  cases orderKey? a.toFloat.toModel.unpack with
  | none => simp
  | some k =>
    cases orderKey? b.toFloat.toModel.unpack with
    | none => simp
    | some l => simpa [← Ordering.ne_gt_iff_isLE] using compare_le_iff_le

theorem lt_iff {a b : Double} : a < b ↔ ∃ k ∈ a.key?, ∃ l ∈ b.key?, k < l := by
  have h : a < b ↔ (a.toFloat.toModel.unpack.compare b.toFloat.toModel.unpack == some .lt) := by
    change Float.lt _ _ = true ↔ _
    unfold Float.lt
    rw [decide_eq_true_iff]
    rfl
  rw [h, compare_eq]
  unfold key?
  cases orderKey? a.toFloat.toModel.unpack with
  | none => simp
  | some k =>
    cases orderKey? b.toFloat.toModel.unpack with
    | none => simp
    | some l => simpa using compare_lt_iff_lt

end Double

instance : OrderedScalar Double where
  not_lt_of_le {a b} hab hba := by
    obtain ⟨k, hk, l, hl, hle⟩ := Double.le_iff.1 hab
    obtain ⟨l', hl', k', hk', hlt⟩ := Double.lt_iff.1 hba
    cases Option.mem_unique hk hk'
    cases Option.mem_unique hl hl'
    exact hle.not_gt hlt
  le_trans {a b c} hab hbc := by
    obtain ⟨k, hk, l, hl, hkl⟩ := Double.le_iff.1 hab
    obtain ⟨l', hl', m, hm, hlm⟩ := Double.le_iff.1 hbc
    cases Option.mem_unique hl hl'
    exact Double.le_iff.2 ⟨k, hk, m, hm, hkl.trans hlm⟩

end Honeycomb
