import Mathlib
import Honeycomb.Chirality.Basic

/-!
# The whole numbers of a chirality

* `t1_mul_dR`, `t2_mul_dR`, `hexagons_mul_dR` — the divisions by `dR` leave no remainder.
* `hexagons_eq` — the number of hexagons is the determinant of the two periods of the tube;
  `isCoprime_t1_t2` — the axial period is not a multiple of a shorter one.
* `partner?_eq_some_iff`, `firstSolution_eq_some`, `le_of_firstSolution`, `firstSolution_isSome` —
  what the search for the symmetry vector finds, and that it does when there is something to find.
* `exists_solution` — there is something, well inside the window of the search.

Principal result: `symmetryVector_spec` — the symmetry vector is a solution of `t1 q - t2 p = 1`
for every chirality; the search never fails.
-/

set_option autoImplicit false

namespace Honeycomb

namespace Chirality

variable (c : Chirality)

/-! ## Divisions -/

theorem dR_pos : 0 < c.dR := by
  have h := c.nonzero
  unfold dR
  have : Int.gcd (2 * c.n + c.m) (2 * c.m + c.n) ≠ 0 := by
    rw [Ne, Int.gcd_eq_zero_iff]
    omega
  omega

theorem t1_mul_dR : c.t1 * c.dR = 2 * c.m + c.n :=
  Int.ediv_mul_cancel (Int.gcd_dvd_right ..)

theorem t2_mul_dR : c.t2 * c.dR = -(2 * c.n + c.m) :=
  Int.ediv_mul_cancel ((Int.gcd_dvd_left ..).neg_right)

/-- Twice the square of the circumference is a combination of the two numbers that `dR` divides. -/
theorem hexagons_mul_dR : c.hexagons * c.dR = 2 * (c.n * c.n + c.m * c.m + c.n * c.m) := by
  apply Int.ediv_mul_cancel
  have hleft : c.dR ∣ 2 * c.n + c.m := Int.gcd_dvd_left ..
  have hright : c.dR ∣ 2 * c.m + c.n := Int.gcd_dvd_right ..
  have hsum := (hleft.mul_left c.n).add (hright.mul_left c.m)
  rwa [show (c.n : Int) * (2 * c.n + c.m) + c.m * (2 * c.m + c.n) =
    2 * (c.n * c.n + c.m * c.m + c.n * c.m) by ring] at hsum

theorem t1_pos : 0 < c.t1 := by
  have h := c.nonzero
  refine pos_of_mul_pos_left ?_ c.dR_pos.le
  rw [t1_mul_dR]
  omega

theorem t2_neg : c.t2 < 0 := by
  have h := c.nonzero
  refine neg_of_mul_neg_left ?_ c.dR_pos.le
  rw [t2_mul_dR]
  omega

/-- **The number of hexagons is the determinant of the two periods.** -/
theorem hexagons_eq : c.hexagons = c.m * c.t1 - c.n * c.t2 := by
  apply mul_right_cancel₀ c.dR_pos.ne'
  rw [hexagons_mul_dR]
  linear_combination -(c.m : Int) * c.t1_mul_dR + (c.n : Int) * c.t2_mul_dR

/-- A square is not below its root. -/
theorem le_mul_self (k : Nat) : (k : Int) ≤ k * k := by
  exact_mod_cast Nat.le_mul_self k

theorem t1_le_hexagons : c.t1 ≤ c.hexagons := by
  refine le_of_mul_le_mul_right ?_ c.dR_pos
  rw [t1_mul_dR, hexagons_mul_dR]
  have hn := le_mul_self c.n
  have hm := le_mul_self c.m
  have hnm : (0 : Int) ≤ c.n * c.m := by positivity
  linarith

theorem neg_t2_le_hexagons : -c.t2 ≤ c.hexagons := by
  refine le_of_mul_le_mul_right ?_ c.dR_pos
  rw [neg_mul, t2_mul_dR, hexagons_mul_dR]
  have hn := le_mul_self c.n
  have hm := le_mul_self c.m
  have hnm : (0 : Int) ≤ c.n * c.m := by positivity
  linarith

theorem hexagons_pos : 0 < c.hexagons :=
  c.t1_pos.trans_le c.t1_le_hexagons

/-- **The axial period is not a multiple of a shorter one.** -/
theorem isCoprime_t1_t2 : IsCoprime c.t1 c.t2 := by
  -- the combination of `2n + m` and `2m + n` that gives `dR`, divided by `dR`
  have hgcd := Int.gcd_eq_gcd_ab (2 * c.n + c.m) (2 * c.m + c.n)
  set x := Int.gcdA (2 * c.n + c.m) (2 * c.m + c.n)
  set y := Int.gcdB (2 * c.n + c.m) (2 * c.m + c.n)
  change c.dR = _ at hgcd
  refine ⟨y, -x, mul_right_cancel₀ c.dR_pos.ne' ?_⟩
  linear_combination y * c.t1_mul_dR - x * c.t2_mul_dR - hgcd

/-! ## The search for the symmetry vector -/

variable {t1 t2 bound : Int}

theorem partner?_eq_some_iff (ht1 : 0 < t1) {p : Nat} {q : Int} :
    partner? t1 t2 bound p = some q ↔ t1 * q - t2 * p = 1 ∧ -bound ≤ q ∧ q ≤ bound := by
  unfold partner?
  dsimp only
  rw [Option.ite_none_right_eq_some, Option.some.injEq]
  constructor
  · rintro ⟨⟨hdiv, hlo, hhi⟩, rfl⟩
    exact ⟨by omega, hlo, hhi⟩
  · rintro ⟨hsol, hlo, hhi⟩
    have hq : (1 + t2 * p) / t1 = q := by
      rw [show 1 + t2 * p = t1 * q by omega, Int.mul_ediv_cancel_left _ ht1.ne']
    rw [hq]
    exact ⟨⟨by omega, hlo, hhi⟩, rfl⟩

/-- What is found is a solution in the window. -/
theorem firstSolution_eq_some {r : Int × Int} : ∀ {count p : Nat},
    firstSolution t1 t2 bound p count = some r →
      ∃ k < count, r.1 = (p + k : Nat) ∧ partner? t1 t2 bound (p + k) = some r.2
  | 0, p, h => by cases h
  | count + 1, p, h => by
    rw [firstSolution] at h
    split at h
    · rename_i q hq
      cases h
      exact ⟨0, by omega, rfl, hq⟩
    · obtain ⟨k, hk, hr, hpartner⟩ := firstSolution_eq_some h
      refine ⟨k + 1, by omega, ?_, ?_⟩
      · rw [hr]
        congr 1
        omega
      · rw [← hpartner]
        congr 1
        omega

/-- A solution in the window is found, or an earlier one. -/
theorem firstSolution_isSome : ∀ {count p k : Nat}, k < count →
    (partner? t1 t2 bound (p + k)).isSome → (firstSolution t1 t2 bound p count).isSome
  | count + 1, p, k, hk, h => by
    rw [firstSolution]
    split
    · rfl
    · rename_i hnone
      cases k with
      | zero =>
        rw [Nat.add_zero, hnone] at h
        cases h
      | succ k =>
        refine firstSolution_isSome (k := k) (by omega) ?_
        rwa [show p + 1 + k = p + (k + 1) by omega]

/-- What is found has the least `p`. -/
theorem le_of_firstSolution {r : Int × Int} : ∀ {count p k : Nat},
    firstSolution t1 t2 bound p count = some r →
      (partner? t1 t2 bound (p + k)).isSome → r.1 ≤ (p + k : Nat)
  | 0, p, k, h, _ => by cases h
  | count + 1, p, k, h, hk => by
    rw [firstSolution] at h
    split at h
    · cases h
      exact Int.ofNat_le.2 (Nat.le_add_right p k)
    · rename_i hnone
      cases k with
      | zero =>
        rw [Nat.add_zero, hnone] at hk
        cases hk
      | succ k =>
        have hnext : p + (k + 1) = p + 1 + k := by omega
        rw [hnext] at hk ⊢
        exact le_of_firstSolution h hk

/-- A solution with `p` from zero to below `t1` has its `q` between `t2` and one. -/
theorem bounds_of_solution (ht1 : 0 < t1) (ht2 : t2 < 0) {p q : Int} (hp : 0 ≤ p) (hp' : p < t1)
    (h : t1 * q - t2 * p = 1) : t2 ≤ q ∧ q ≤ 1 := by
  constructor
  · by_contra hq
    nlinarith
  · by_contra hq
    nlinarith

/-- There is a solution with `p` below `t1`. -/
theorem exists_solution : ∃ p : Nat, ∃ q : Int, p < c.t1 ∧ c.t1 * q - c.t2 * p = 1 := by
  obtain ⟨x, y, hxy⟩ := c.isCoprime_t1_t2
  have ht1 := c.t1_pos
  have hlo := Int.emod_nonneg (-y) ht1.ne'
  have hhi := Int.emod_lt_of_pos (-y) ht1
  have hdef := Int.emod_def (-y) c.t1
  obtain ⟨p, hp⟩ := Int.eq_ofNat_of_zero_le hlo
  rw [hp] at hdef hhi
  refine ⟨p, x - c.t2 * (-y / c.t1), hhi, ?_⟩
  linear_combination hxy - c.t2 * hdef

/-- Such a solution lies in the window of the search. -/
theorem isSome_partner?_of_solution {p : Nat} {q : Int} (hp : p < c.t1)
    (h : c.t1 * q - c.t2 * p = 1) : (partner? c.t1 c.t2 c.hexagons p).isSome := by
  have hbounds := bounds_of_solution c.t1_pos c.t2_neg (Int.natCast_nonneg p) hp h
  have hN := c.hexagons_pos
  have hN' := c.neg_t2_le_hexagons
  rw [(partner?_eq_some_iff c.t1_pos).2 ⟨h, by omega, by omega⟩]
  rfl

/-- **The search never fails.** -/
theorem firstSolution_eq_symmetryVector :
    firstSolution c.t1 c.t2 c.hexagons 0 (c.hexagons.toNat + 1) = some c.symmetryVector := by
  obtain ⟨p, q, hp, hsol⟩ := c.exists_solution
  have hN := c.t1_le_hexagons
  have hcount : p < c.hexagons.toNat + 1 := by omega
  have hsome := firstSolution_isSome (p := 0) hcount
    ((Nat.zero_add p).symm ▸ c.isSome_partner?_of_solution hp hsol)
  obtain ⟨r, hr⟩ := Option.isSome_iff_exists.1 hsome
  rw [symmetryVector, hr, Option.getD_some]

/-- **The symmetry vector solves its equation**, and its first component is a natural number in
the window of the search. -/
theorem symmetryVector_spec :
    c.t1 * c.symmetryVector.2 - c.t2 * c.symmetryVector.1 = 1 ∧
      0 ≤ c.symmetryVector.1 ∧ c.symmetryVector.1 ≤ c.hexagons := by
  have hN := c.hexagons_pos
  obtain ⟨k, hk, hfst, hpartner⟩ := firstSolution_eq_some c.firstSolution_eq_symmetryVector
  rw [partner?_eq_some_iff c.t1_pos] at hpartner
  refine ⟨?_, by omega, by omega⟩
  rw [hfst]
  exact hpartner.1

end Chirality

end Honeycomb
