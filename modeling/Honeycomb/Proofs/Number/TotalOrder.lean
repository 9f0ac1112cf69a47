import Honeycomb.Proofs.Number.Rank

/-!
# The total order of doubles

Comparisons leave some doubles in no order: both zeros, and whatever is not a number. The total
order of the IEEE standard puts all bit patterns into one row.

* `Double.Precedes` — the order by the clauses of the standard: as numbers compare, negative zero
  before zero, and what is not a number outside of all numbers, on the side of its sign and by its
  payload.
* `Double.rank_lt_iff` — the ranks that doubles are sorted by ascend in this order.

Principal results: `before_iff_not_precedes` — the order used for sorting is the total order.
`bits_eq_iff_not_precedes` — of two different doubles one precedes the other.
-/

set_option autoImplicit false

namespace Honeycomb

namespace Double

variable {a b : Double}

/-- The sign bit is set. -/
abbrev IsSigned (x : Double) : Prop :=
  2 ^ 63 ≤ x.bits.toNat

/-- The mantissa; what is not a number has its payload there, behind a bit that tells the quiet ones
from the signalling ones. -/
def mantissa (x : Double) : Nat :=
  x.bits.toNat % 2 ^ 52

/-- **The total order of the IEEE standard**, strictly. Payloads ascend away from zero, so that those
with a sign descend. -/
inductive Precedes (x y : Double) : Prop where
  | less (h : x < y)
  | zeros (hx : x = -0) (hy : y = 0)
  | signedNaN (hx : x.isNaN = true) (hsign : x.IsSigned) (hy : y.isNaN = false)
  | unsignedNaN (hx : x.isNaN = false) (hy : y.isNaN = true) (hsign : ¬y.IsSigned)
  | signs (hx : x.isNaN = true) (hy : y.isNaN = true) (hxsign : x.IsSigned) (hysign : ¬y.IsSigned)
  | payloads (hx : x.isNaN = true) (hy : y.isNaN = true) (hxsign : ¬x.IsSigned)
    (hysign : ¬y.IsSigned) (h : x.mantissa < y.mantissa)
  | signedPayloads (hx : x.isNaN = true) (hy : y.isNaN = true) (hxsign : x.IsSigned)
    (hysign : y.IsSigned) (h : y.mantissa < x.mantissa)

theorem isNaN_eq_false_iff : a.isNaN = false ↔ a.place.natAbs ≤ 2047 * 2 ^ 52 := by
  rw [← Bool.not_eq_true, isNaN_iff, not_lt]

/-- The payload of what is not a number is what its magnitude has above that of infinity. -/
theorem natAbs_place_of_isNaN (h : a.isNaN = true) :
    a.place.natAbs = 2047 * 2 ^ 52 + a.mantissa := by
  rw [isNaN_iff, natAbs_place] at h
  rw [natAbs_place, mantissa]
  omega

/-- The sign says on which side of zero a double is, and on which side of the middle its rank. -/
theorem isSigned_cases (x : Double) :
    x.IsSigned ∧ x.place = -x.place.natAbs ∧ x.rank.toNat + x.place.natAbs + 1 = 2 ^ 63 ∨
      ¬x.IsSigned ∧ x.place = x.place.natAbs ∧ x.rank.toNat = 2 ^ 63 + x.place.natAbs := by
  have hlt := x.bits.toNat_lt
  rw [toNat_rank, natAbs_place, IsSigned, place]
  split_ifs <;> omega

theorem eq_zero_iff : a = 0 ↔ ¬a.IsSigned ∧ a.place.natAbs = 0 := by
  have hbits : a = 0 ↔ a.bits.toNat = 0 := by
    rw [Double.ext_iff, ← UInt64.toNat_inj]
    rfl
  rw [hbits, IsSigned, natAbs_place]
  omega

theorem eq_neg_zero_iff : a = -0 ↔ a.IsSigned ∧ a.place.natAbs = 0 := by
  have hlt := a.bits.toNat_lt
  have hbits : a = -0 ↔ a.bits.toNat = 2 ^ 63 := by
    rw [Double.ext_iff, ← UInt64.toNat_inj]
    rfl
  rw [hbits, IsSigned, natAbs_place]
  omega

theorem precedes_of_rank_lt (h : a.rank < b.rank) : a.Precedes b := by
  rw [UInt64.lt_iff_toNat_lt] at h
  have hcases := isSigned_cases a
  have hcases' := isSigned_cases b
  cases hx : a.isNaN with
  | false =>
    have hfinite := isNaN_eq_false_iff.1 hx
    cases hy : b.isNaN with
    | false =>
      have hfinite' := isNaN_eq_false_iff.1 hy
      by_cases hless : a < b
      · exact .less hless
      · -- only the zeros are numbers of different rank that do not compare
        rw [lt_iff_place] at hless
        refine .zeros (eq_neg_zero_iff.2 ?_) (eq_zero_iff.2 ?_)
        · omega
        · omega
    | true =>
      have hpayload := natAbs_place_of_isNaN hy
      exact .unsignedNaN hx hy (by omega)
  | true =>
    have hpayload := natAbs_place_of_isNaN hx
    cases hy : b.isNaN with
    | false =>
      have hfinite' := isNaN_eq_false_iff.1 hy
      exact .signedNaN hx (by omega) hy
    | true =>
      have hpayload' := natAbs_place_of_isNaN hy
      by_cases hxsign : a.IsSigned
      · by_cases hysign : b.IsSigned
        · exact .signedPayloads hx hy hxsign hysign (by omega)
        · exact .signs hx hy hxsign hysign
      · exact .payloads hx hy hxsign (by omega) (by omega)

theorem rank_lt_of_precedes (h : a.Precedes b) : a.rank < b.rank := by
  rw [UInt64.lt_iff_toNat_lt]
  have hcases := isSigned_cases a
  have hcases' := isSigned_cases b
  cases h with
  | less h =>
    rw [lt_iff_place] at h
    omega
  | zeros hx hy =>
    rw [eq_neg_zero_iff] at hx
    rw [eq_zero_iff] at hy
    omega
  | signedNaN hx hsign hy =>
    have hpayload := natAbs_place_of_isNaN hx
    rw [isNaN_iff] at hx
    rw [isNaN_eq_false_iff] at hy
    omega
  | unsignedNaN hx hy hsign =>
    have hpayload := natAbs_place_of_isNaN hy
    rw [isNaN_eq_false_iff] at hx
    rw [isNaN_iff] at hy
    omega
  | signs hx hy hxsign hysign => omega
  | payloads hx hy hxsign hysign h =>
    have hpayload := natAbs_place_of_isNaN hx
    have hpayload' := natAbs_place_of_isNaN hy
    omega
  | signedPayloads hx hy hxsign hysign h =>
    have hpayload := natAbs_place_of_isNaN hx
    have hpayload' := natAbs_place_of_isNaN hy
    omega

/-- **Ranks ascend in the total order.** -/
theorem rank_lt_iff : a.rank < b.rank ↔ a.Precedes b :=
  ⟨precedes_of_rank_lt, rank_lt_of_precedes⟩

/-- No two doubles have one rank. -/
theorem rank_inj : a.rank = b.rank ↔ a.bits = b.bits := by
  have ha := a.bits.toNat_lt
  have hb := b.bits.toNat_lt
  rw [← UInt64.toNat_inj, ← UInt64.toNat_inj, toNat_rank, toNat_rank]
  split_ifs <;> omega

end Double

/-- **The order used for sorting is the total order.** -/
theorem before_iff_not_precedes {a b : Double} :
    Scalar.before a b = true ↔ ¬b.Precedes a := by
  rw [← Double.rank_lt_iff, UInt64.not_lt]
  exact decide_eq_true_iff

/-- Of two different doubles one precedes the other. -/
theorem bits_eq_iff_not_precedes {a b : Double} :
    a.bits = b.bits ↔ ¬a.Precedes b ∧ ¬b.Precedes a := by
  rw [← Double.rank_inj, ← Double.rank_lt_iff, ← Double.rank_lt_iff, UInt64.not_lt, UInt64.not_lt,
    and_comm, ← UInt64.le_antisymm_iff]

end Honeycomb
