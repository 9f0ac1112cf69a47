import Honeycomb.Proofs.Chirality.Indices

/-!
# The divisions of a chirality

Every length and every count of a tube goes back to three quotients by `dR`.

* `euclid` — the loop that a greatest common divisor is computed by; `euclid_eq` — it ends, with the
  greatest common divisor.
* `Chirality.dR_eq` — `dR` is the common divisor of the indices, or three times as much.
* `Chirality.dR_dvd_squares` — `dR` divides half of what gives the number of hexagons.
* `Chirality.tdiv_eq` — a division that drops the remainder drops nothing.

Principal result: `Chirality.divisions_are_exact`.
-/

set_option autoImplicit false

namespace Honeycomb

/-! ## Common divisors -/

/-- Remainders one after another, until there is none. -/
def euclid (a b : Nat) : Nat :=
  if b = 0 then a else euclid b (a % b)
termination_by b
decreasing_by exact Nat.mod_lt a (Nat.pos_of_ne_zero ‹_›)

/-- **The loop computes the greatest common divisor.** -/
theorem euclid_eq (a b : Nat) : euclid a b = Nat.gcd a b := by
  fun_induction euclid a b with
  | case1 a => exact (Nat.gcd_zero_right a).symm
  | case2 a b hb ih => rw [ih, Nat.gcd_comm b, ← Nat.gcd_rec, Nat.gcd_comm]

/-- Of numbers without a common divisor, twice the one and the other have at most the divisor three
in common with twice the other and the one. -/
theorem gcd_of_isCoprime {x y : Int} (h : IsCoprime x y) :
    (Int.gcd (2 * x + y) (2 * y + x) : Int) = if 3 ∣ x - y then 3 else 1 := by
  have hleft : (Int.gcd (2 * x + y) (2 * y + x) : Int) ∣ 2 * x + y := Int.gcd_dvd_left ..
  have hright : (Int.gcd (2 * x + y) (2 * y + x) : Int) ∣ 2 * y + x := Int.gcd_dvd_right ..
  have hgreatest : 3 ∣ 2 * x + y → 3 ∣ 2 * y + x → 3 ∣ Int.gcd (2 * x + y) (2 * y + x) :=
    fun hx hy => Int.natCast_dvd_natCast.1 (Int.dvd_coe_gcd hx hy)
  generalize Int.gcd (2 * x + y) (2 * y + x) = d at hleft hright hgreatest ⊢
  have hthree : (d : Int) ∣ 3 := by
    obtain ⟨a, b, hab⟩ := h
    -- three times each number is a combination of the two sums
    have hcombine := (hleft.mul_left (2 * a - b)).add (hright.mul_left (2 * b - a))
    rwa [show (2 * a - b) * (2 * x + y) + (2 * b - a) * (2 * y + x) = 3 by
      linear_combination 3 * hab]
      at hcombine
  obtain rfl | rfl := (Nat.dvd_prime Nat.prime_three).1 (Int.natCast_dvd_natCast.1 hthree)
  · have hapart : ¬3 ∣ x - y := by
      intro hdiff
      have hdvd := hgreatest (by omega) (by omega)
      omega
    rw [if_neg hapart]
    rfl
  · have hdiff : 3 ∣ x - y := by omega
    rw [if_pos hdiff]
    rfl

namespace Chirality

variable (c : Chirality)

/-- The greatest common divisor of the indices. -/
def commonDivisor : Int :=
  Nat.gcd c.n c.m

theorem commonDivisor_pos : 0 < c.commonDivisor := by
  have h := c.nonzero
  have hgcd : Nat.gcd c.n c.m ≠ 0 := by
    rw [Ne, Nat.gcd_eq_zero_iff]
    omega
  unfold commonDivisor
  omega

/-- The indices are multiples of their common divisor by numbers that have none. -/
theorem exists_isCoprime :
    ∃ x y : Int, IsCoprime x y ∧ c.n = c.commonDivisor * x ∧ c.m = c.commonDivisor * y := by
  have hpos : 0 < Nat.gcd c.n c.m := by
    have h := c.commonDivisor_pos
    unfold commonDivisor at h
    omega
  obtain ⟨x, y, hxy, hn, hm⟩ := Nat.exists_coprime c.n c.m
  refine ⟨x, y, Nat.isCoprime_iff_coprime.2 hxy, ?_, ?_⟩
  · rw [commonDivisor, mul_comm]
    exact_mod_cast hn
  · rw [commonDivisor, mul_comm]
    exact_mod_cast hm

/-- **The divisor is the one of the indices**, or three times as much where three divides what is
left of their difference. -/
theorem dR_eq : c.dR =
    if 3 ∣ (c.n - c.m) / c.commonDivisor then 3 * c.commonDivisor else c.commonDivisor := by
  have hpos := c.commonDivisor_pos
  obtain ⟨x, y, hxy, hn, hm⟩ := c.exists_isCoprime
  have hquotient : ((c.n : Int) - c.m) / c.commonDivisor = x - y := by
    rw [hn, hm, ← mul_sub, Int.mul_ediv_cancel_left _ hpos.ne']
  have hleft : 2 * (c.n : Int) + c.m = c.commonDivisor * (2 * x + y) := by
    rw [hn, hm]
    ring
  have hright : 2 * (c.m : Int) + c.n = c.commonDivisor * (2 * y + x) := by
    rw [hn, hm]
    ring
  rw [hquotient, dR, hleft, hright, Int.gcd_mul_left, Nat.cast_mul, gcd_of_isCoprime hxy,
    Int.natAbs_of_nonneg hpos.le]
  split
  · ring
  · ring

/-! ## Quotients -/

theorem dR_dvd_left : c.dR ∣ 2 * c.n + c.m :=
  Int.gcd_dvd_left ..

theorem dR_dvd_right : c.dR ∣ 2 * c.m + c.n :=
  Int.gcd_dvd_right ..

/-- The divisor divides the square of the circumference, by which half the hexagons are counted. -/
theorem dR_dvd_squares : c.dR ∣ c.n * c.n + c.m * c.m + c.n * c.m := by
  have hdiff : c.dR ∣ (2 * c.n + c.m) - (2 * c.m + c.n) := c.dR_dvd_left.sub c.dR_dvd_right
  have hsum := (c.dR_dvd_left.mul_left c.n).sub (hdiff.mul_left (c.n + c.m))
  rwa [show (c.n : Int) * (2 * c.n + c.m) - (c.n + c.m) * (2 * c.n + c.m - (2 * c.m + c.n)) =
    c.n * c.n + c.m * c.m + c.n * c.m by ring] at hsum

/-- **Nothing is dropped by a division that drops the remainder**, whichever way it rounds. -/
theorem tdiv_eq :
    c.t1 = (2 * c.m + c.n : Int).tdiv c.dR ∧ c.t2 = (-(2 * c.n + c.m) : Int).tdiv c.dR ∧
      c.hexagons = (2 * (c.n * c.n + c.m * c.m + c.n * c.m) : Int).tdiv c.dR := by
  have hhexagons := c.dR_dvd_squares.mul_left 2
  refine ⟨?_, ?_, ?_⟩
  · exact (Int.tdiv_eq_ediv_of_dvd c.dR_dvd_right).symm
  · exact (Int.tdiv_eq_ediv_of_dvd c.dR_dvd_left.neg_right).symm
  · exact (Int.tdiv_eq_ediv_of_dvd hhexagons).symm

theorem two_dvd_hexagons : 2 ∣ c.hexagons := by
  obtain ⟨k, hk⟩ := c.dR_dvd_squares
  refine ⟨k, mul_right_cancel₀ c.dR_pos.ne' ?_⟩
  rw [hexagons_mul_dR, hk]
  ring

theorem atomCount_eq : (c.atomCount : Int) = 2 * c.hexagons := by
  have h := c.hexagons_pos
  unfold atomCount
  omega

/-! ## The mirror image -/

theorem dR_mirror : c.mirror.dR = c.dR := by
  unfold dR mirror
  rw [Int.gcd_comm]

theorem hexagons_mirror : c.mirror.hexagons = c.hexagons := by
  apply mul_right_cancel₀ c.dR_pos.ne'
  rw [hexagons_mul_dR, ← dR_mirror, hexagons_mul_dR]
  unfold mirror
  ring

theorem t1_mirror : c.mirror.t1 = -c.t2 := by
  apply mul_right_cancel₀ c.dR_pos.ne'
  rw [neg_mul, t2_mul_dR, ← dR_mirror, t1_mul_dR]
  unfold mirror
  ring

/-! ## All together -/

/-- What the whole numbers of a chirality are, beside the divisions that they are computed by. -/
structure HasExactNumbers : Prop where
  dR_euclid : c.dR = euclid (2 * c.n + c.m) (2 * c.m + c.n)
  dR_eq : c.dR =
    if 3 ∣ (c.n - c.m) / c.commonDivisor then 3 * c.commonDivisor else c.commonDivisor
  dR_dvd : c.dR ∣ 2 * c.m + c.n ∧ c.dR ∣ 2 * c.n + c.m ∧
    c.dR ∣ 2 * (c.n * c.n + c.m * c.m + c.n * c.m)
  t1_eq : c.t1 = (2 * c.m + c.n : Int).tdiv c.dR ∧ c.t1 * c.dR = 2 * c.m + c.n
  t2_eq : c.t2 = (-(2 * c.n + c.m) : Int).tdiv c.dR ∧ c.t2 * c.dR = -(2 * c.n + c.m)
  hexagons_eq : c.hexagons = (2 * (c.n * c.n + c.m * c.m + c.n * c.m) : Int).tdiv c.dR ∧
    c.hexagons * c.dR = 2 * (c.n * c.n + c.m * c.m + c.n * c.m)
  hexagons_even : 2 ∣ c.hexagons ∧ 0 < c.hexagons
  atomCount_eq : (c.atomCount : Int) = 2 * c.hexagons
  period_pos : 0 < c.t1 ∧ 0 < -c.t2
  isCoprime : IsCoprime c.t1 (-c.t2)
  hexagons_det : c.hexagons = c.m * c.t1 - c.n * c.t2
  mirrored : c.mirror.dR = c.dR ∧ c.mirror.hexagons = c.hexagons ∧ c.mirror.t1 = -c.t2

/-- **The divisions are exact** for every chirality. -/
theorem divisions_are_exact : c.HasExactNumbers where
  dR_euclid := by
    rw [euclid_eq]
    rfl
  dR_eq := c.dR_eq
  dR_dvd := ⟨c.dR_dvd_right, c.dR_dvd_left, c.dR_dvd_squares.mul_left 2⟩
  t1_eq := ⟨c.tdiv_eq.1, c.t1_mul_dR⟩
  t2_eq := ⟨c.tdiv_eq.2.1, c.t2_mul_dR⟩
  hexagons_eq := ⟨c.tdiv_eq.2.2, c.hexagons_mul_dR⟩
  hexagons_even := ⟨c.two_dvd_hexagons, c.hexagons_pos⟩
  atomCount_eq := c.atomCount_eq
  period_pos := ⟨c.t1_pos, neg_pos.2 c.t2_neg⟩
  isCoprime := c.isCoprime_t1_t2.neg_right
  hexagons_det := c.hexagons_eq
  mirrored := ⟨c.dR_mirror, c.hexagons_mirror, c.t1_mirror⟩

end Chirality

end Honeycomb
