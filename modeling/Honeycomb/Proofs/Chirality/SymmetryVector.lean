import Honeycomb.Crystal.Supercell
import Honeycomb.Proofs.Chirality.Indices

/-!
# The symmetry vector as the result of a scan

The symmetry vector is looked for by scanning pairs `(p, q)`: `p` upward from zero to the number
`N` of hexagons, and for each `p` all `q` from `-N` to `N`.

* `Chirality.window` — the pairs in the order of the scan. `Chirality.solves` — the test.
* `find?_row` — for one `p` the scan comes down to a division with `partner?`;
  `firstSolution_eq_find?` — so the search by divisions finds what the scan finds.
* `Chirality.IsLeastSolution` — a solution has the least `p` of all solutions from zero on, and no
  other `q` goes with this `p`. `eq_of_isLeastSolution` — there is one at most.

Principal result: `Chirality.scan_finds_least_solution` — the scan finds such a solution for every
chirality.
-/

set_option autoImplicit false

namespace Honeycomb

namespace Chirality

/-! ## The scan -/

/-- The pairs with one `p`. -/
def row (bound p : Int) : List (Int × Int) :=
  (integersFromTo (-bound) bound).map fun q => (p, q)

/-- All pairs that are scanned, in order. -/
def window (bound : Int) : List (Int × Int) :=
  (integersFromTo 0 bound).flatMap (row bound)

/-- The pair solves `t1 q - t2 p = 1`. -/
def solves (t1 t2 : Int) (r : Int × Int) : Bool :=
  t1 * r.2 - t2 * r.1 == 1

section

variable {t1 t2 bound : Int}

theorem solves_iff {r : Int × Int} : solves t1 t2 r = true ↔ t1 * r.2 - t2 * r.1 = 1 := by
  rw [solves, beq_iff_eq]

/-- A `p` has one `q` at most. -/
theorem eq_of_solves (ht1 : 0 < t1) {p q q' : Int} (h : t1 * q - t2 * p = 1)
    (h' : t1 * q' - t2 * p = 1) : q = q' := by
  apply mul_left_cancel₀ ht1.ne'
  omega

/-- In a row the scan finds the `q` that the division gives. -/
theorem find?_row (ht1 : 0 < t1) (p : Nat) :
    (row bound p).find? (solves t1 t2) = (partner? t1 t2 bound p).map fun q => ((p : Int), q) := by
  have hmem {r : Int × Int} : r ∈ row bound p ↔ (-bound ≤ r.2 ∧ r.2 ≤ bound) ∧ (p : Int) = r.1 := by
    simp only [row, List.mem_map, mem_integersFromTo]
    constructor
    · rintro ⟨q, hq, rfl⟩
      exact ⟨hq, rfl⟩
    · rintro ⟨hq, hp⟩
      exact ⟨r.2, hq, Prod.ext hp rfl⟩
  cases hpartner : partner? t1 t2 bound p with
  | none =>
    rw [Option.map_none, List.find?_eq_none]
    intro r hr hsol
    obtain ⟨hq, hp⟩ := hmem.1 hr
    rw [solves_iff, ← hp] at hsol
    have hsome := (partner?_eq_some_iff ht1).2 ⟨hsol, hq.1, hq.2⟩
    rw [hpartner] at hsome
    cases hsome
  | some q =>
    obtain ⟨hsol, hlo, hhi⟩ := (partner?_eq_some_iff ht1).1 hpartner
    have hsome : ((row bound p).find? (solves t1 t2)).isSome :=
      List.find?_isSome.2 ⟨(p, q), hmem.2 ⟨⟨hlo, hhi⟩, rfl⟩, solves_iff.2 hsol⟩
    obtain ⟨r, hr⟩ := Option.isSome_iff_exists.1 hsome
    obtain ⟨-, hp⟩ := hmem.1 (List.mem_of_find?_eq_some hr)
    have hsol' := solves_iff.1 (List.find?_some hr)
    rw [← hp] at hsol'
    rw [hr, Option.map_some]
    exact congrArg some (Prod.ext hp.symm (eq_of_solves ht1 hsol' hsol))

/-- **The search by divisions finds what the scan finds**, row by row. -/
theorem firstSolution_eq_find? (ht1 : 0 < t1) (count p : Nat) :
    firstSolution t1 t2 bound p count =
      ((List.range' p count).flatMap fun (p : Nat) => row bound p).find? (solves t1 t2) := by
  induction count generalizing p with
  | zero => rfl
  | succ count ih =>
    rw [List.range'_succ, List.flatMap_cons, List.find?_append, find?_row ht1, firstSolution, ← ih]
    cases partner? t1 t2 bound p with
    | none => rfl
    | some q => rfl

theorem window_eq (h : 0 ≤ bound) :
    window bound = (List.range' 0 (bound.toNat + 1)).flatMap fun (p : Nat) => row bound p := by
  have hlength : (bound - 0 + 1).toNat = bound.toNat + 1 := by omega
  unfold window integersFromTo
  rw [hlength, List.flatMap_map, ← List.range_eq_range']
  simp only [zero_add]

end

/-! ## Least solutions -/

variable (c : Chirality)

/-- A solution of `t1 q - t2 p = 1` that has the least `p` of all solutions from zero on, with the
only `q` for this `p`. -/
structure IsLeastSolution (r : Int × Int) : Prop where
  solution : c.t1 * r.2 - c.t2 * r.1 = 1
  nonneg : 0 ≤ r.1
  least : ∀ p q : Int, 0 ≤ p → c.t1 * q - c.t2 * p = 1 → r.1 ≤ p
  unique : ∀ q : Int, c.t1 * q - c.t2 * r.1 = 1 → q = r.2

variable {c}

/-- There is one least solution at most. -/
theorem eq_of_isLeastSolution {r r' : Int × Int} (h : c.IsLeastSolution r)
    (h' : c.IsLeastSolution r') : r = r' := by
  have hp : r.1 = r'.1 := le_antisymm (h.least _ _ h'.nonneg h'.solution)
    (h'.least _ _ h.nonneg h.solution)
  exact Prod.ext hp (h'.unique _ (hp ▸ h.solution))

variable (c)

/-- The symmetry vector is found before a whole axial period has passed. -/
theorem symmetryVector_lt : c.symmetryVector.1 < c.t1 := by
  obtain ⟨p, q, hp, hsol⟩ := c.exists_solution
  have hpartner := c.isSome_partner?_of_solution hp hsol
  have hle := le_of_firstSolution (k := p) c.firstSolution_eq_symmetryVector
    ((Nat.zero_add p).symm ▸ hpartner)
  omega

/-- Solutions differ by whole axial periods, so that one below a period is the least. -/
theorem isLeastSolution_symmetryVector : c.IsLeastSolution c.symmetryVector := by
  obtain ⟨hsol, hnonneg, -⟩ := c.symmetryVector_spec
  have hlt := c.symmetryVector_lt
  refine ⟨hsol, hnonneg, fun p q hp h => ?_, fun q h => eq_of_solves c.t1_pos h hsol⟩
  generalize c.symmetryVector = r at *
  have hdvd : c.t1 ∣ c.t2 * (p - r.1) := ⟨q - r.2, by linear_combination hsol - h⟩
  obtain ⟨k, hk⟩ := c.isCoprime_t1_t2.dvd_of_dvd_mul_left hdvd
  by_contra hless
  -- a solution below it would be less than zero
  have hk' : k ≤ -1 := by
    by_contra hk'
    have := mul_nonneg c.t1_pos.le (by omega : 0 ≤ k)
    omega
  have := mul_le_mul_of_nonneg_left hk' c.t1_pos.le
  omega

/-- **The scan finds the least solution**, for every chirality. It ends well inside its window: at a
`p` below `t1` and a `q` between `t2` and one. So the search never comes to an end without a
solution, and its fallback, which solves nothing, is never the symmetry vector. -/
theorem scan_finds_least_solution :
    (window c.hexagons).find? (solves c.t1 c.t2) = some c.symmetryVector ∧
      c.IsLeastSolution c.symmetryVector ∧ (∃! r, c.IsLeastSolution r) ∧
      c.symmetryVector.1 < c.t1 ∧ c.t1 ≤ c.hexagons ∧
      (c.t2 ≤ c.symmetryVector.2 ∧ c.symmetryVector.2 ≤ 1) ∧ -c.hexagons ≤ c.t2 ∧
      c.symmetryVector ≠ (0, 0) := by
  have hleast := c.isLeastSolution_symmetryVector
  have hlt := c.symmetryVector_lt
  have hN := c.neg_t2_le_hexagons
  refine ⟨?_, hleast, ⟨_, hleast, fun r hr => eq_of_isLeastSolution hr hleast⟩, hlt,
    c.t1_le_hexagons, ?_, by omega, fun hzero => ?_⟩
  · rw [window_eq c.hexagons_pos.le, ← firstSolution_eq_find? c.t1_pos]
    exact c.firstSolution_eq_symmetryVector
  · exact bounds_of_solution c.t1_pos c.t2_neg hleast.nonneg hlt hleast.solution
  · have hsol := hleast.solution
    simp [hzero] at hsol

end Chirality

end Honeycomb
