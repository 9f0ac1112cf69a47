import Mathlib
import Honeycomb.Structure.Tube
import Honeycomb.Proofs.Chirality.Indices
import Honeycomb.Proofs.Lists
import Honeycomb.Proofs.Number.Real

/-!
# The screw of a tube

* `Chirality.turn` — how many turns of the screw lead around to a hexagon; `reaches_iff` — a power
  of the screw reaches a hexagon, up to whole periods, if it makes as many turns up to a multiple
  of the number of hexagons.
* `existsUnique_reaches` — the hexagons modulo the periods are a cycle that the symmetry vector
  generates.
* `IsTurnable`, `IsSeparating` — the places of a tube do not change with a full turn, and places
  of different angles are different.

Principal result: `screw_reaches_each_hexagon_once` — the atoms of the unit cell of a tube,
rolled up or flat, are one pair for each hexagon of graphene modulo the two periods.
-/

set_option autoImplicit false

namespace Honeycomb

namespace Chirality

variable (c : Chirality)

/-! ## The cycle of hexagons -/

/-- Some turns of the screw reach a hexagon, up to whole periods around and along the tube. -/
def Reaches (i : Nat) (a b : Int) : Prop :=
  ∃ u v : Int, a = i * c.symmetryVector.1 + u * c.n + v * c.t1 ∧
    b = i * c.symmetryVector.2 + u * c.m + v * c.t2

/-- How many turns of the screw lead around the tube as far as a hexagon. -/
def turn (a b : Int) : Int :=
  c.t1 * b - c.t2 * a

/-- All turns together are once around the tube and some periods along it. -/
theorem hexagons_mul_symmetryVector :
    c.hexagons * c.symmetryVector.1 = c.n + c.screwPitch * c.t1 ∧
      c.hexagons * c.symmetryVector.2 = c.m + c.screwPitch * c.t2 := by
  have hsol := c.symmetryVector_spec.1
  have hN := c.hexagons_eq
  unfold screwPitch
  generalize c.symmetryVector = r at hsol ⊢
  obtain ⟨p, q⟩ := r
  dsimp only at hsol ⊢
  constructor
  · linear_combination p * hN + c.n * hsol
  · linear_combination q * hN + c.m * hsol

theorem reaches_iff {i : Nat} {a b : Int} : c.Reaches i a b ↔ c.hexagons ∣ c.turn a b - i := by
  have hsol := c.symmetryVector_spec.1
  have hN := c.hexagons_eq
  unfold Reaches turn
  generalize c.symmetryVector = r at hsol ⊢
  obtain ⟨p, q⟩ := r
  dsimp only at hsol ⊢
  constructor
  · rintro ⟨u, v, rfl, rfl⟩
    refine ⟨u, ?_⟩
    linear_combination i * hsol - u * hN
  · -- what is left without the turns and the windings is a multiple of the axial period
    rintro ⟨u, hu⟩
    have hleft : c.t1 * (b - i * q - u * c.m) = c.t2 * (a - i * p - u * c.n) := by
      linear_combination hu - i * hsol + u * hN
    refine ⟨u, q * (a - i * p - u * c.n) - p * (b - i * q - u * c.m), ?_, ?_⟩
    · linear_combination p * hleft - (a - i * p - u * c.n) * hsol
    · linear_combination q * hleft - (b - i * q - u * c.m) * hsol

/-- **The hexagons modulo the periods are a cycle**, generated by the symmetry vector. -/
theorem existsUnique_reaches (a b : Int) : ∃! i : Nat, i < c.hexagons ∧ c.Reaches i a b := by
  have hpos := c.hexagons_pos
  have hlo := Int.emod_nonneg (c.turn a b) hpos.ne'
  have hhi := Int.emod_lt_of_pos (c.turn a b) hpos
  obtain ⟨i, hi⟩ := Int.eq_ofNat_of_zero_le hlo
  refine ⟨i, ⟨hi ▸ hhi, ?_⟩, ?_⟩
  · rw [reaches_iff, ← hi]
    exact Int.dvd_self_sub_emod
  · rintro j ⟨hj, hreach⟩
    rw [reaches_iff] at hreach
    have hmod : c.turn a b % c.hexagons = j % c.hexagons :=
      Int.emod_eq_emod_iff_emod_sub_eq_zero.2 (Int.emod_eq_zero_of_dvd hreach)
    rw [Int.emod_eq_of_lt (by omega) hj] at hmod
    omega

/-! ## Turns and periods in exact arithmetic -/

theorem hexagons_real_pos : (0 : ℝ) < c.hexagons := by
  exact_mod_cast c.hexagons_pos

theorem circumference_pos {bond : ℝ} (hbond : 0 < bond) : 0 < c.circumference bond := by
  have h := c.nonzero
  have hsum : (0 : ℝ) < c.n * c.n + c.m * c.m + c.n * c.m := by
    have : 0 < c.n * c.n + c.m * c.m + c.n * c.m := by
      rcases h with h | h <;> positivity
    exact_mod_cast this
  unfold circumference
  simp only [Scalar.sqrt3_real, Scalar.sqrt_real, Scalar.ofNat_real]
  positivity

theorem radius_mul_two_pi (bond : ℝ) :
    c.radius bond * (2 * Real.pi) = c.circumference bond := by
  unfold radius
  rw [Scalar.pi_real]
  norm_num

theorem hexagons_mul_psi : (c.hexagons : ℝ) * c.psi = 2 * Real.pi := by
  have := c.hexagons_real_pos
  unfold psi
  rw [Scalar.pi_real, Scalar.ofInt_real]
  norm_num
  field_simp

theorem radius_pos {bond : ℝ} (hbond : 0 < bond) : 0 < c.radius bond := by
  have h := c.circumference_pos hbond
  rw [← c.radius_mul_two_pi] at h
  exact pos_of_mul_pos_left h (by positivity)

theorem psi_pos : (0 : ℝ) < c.psi := by
  refine pos_of_mul_pos_right ?_ c.hexagons_real_pos.le
  rw [c.hexagons_mul_psi]
  positivity

theorem hexagons_mul_tau (bond : ℝ) :
    (c.hexagons : ℝ) * c.tau bond = c.screwPitch * c.axialPeriod bond := by
  have := c.hexagons_real_pos
  unfold tau
  rw [Scalar.ofInt_real, Scalar.ofInt_real]
  field_simp

end Chirality

/-! ## Places -/

/-- The remainder by the period is all that is kept of a number. -/
theorem fold_add_mul (value period : ℝ) (k : Int) :
    fold (value + k * period) period = fold value period := by
  unfold fold
  rw [Scalar.modulo_add_mul]

/-- A folded number is moved by periods, and up by less than what is snapped to zero. -/
theorem exists_fold_sub {period : ℝ} (hperiod : 0 < period) (value : ℝ) :
    ∃ k : Int, 0 ≤ fold value period - (value - k * period) ∧
      fold value period - (value - k * period) < 1e-9 := by
  have hlt := Int.lt_floor_add_one (value / period)
  have hmodulo : Scalar.modulo value period = value - ⌊value / period⌋ * period := by
    rw [Scalar.modulo_real, abs_of_pos hperiod, mul_comm]
  rw [div_lt_iff₀ hperiod] at hlt
  unfold fold
  dsimp only
  rw [hmodulo]
  generalize ⌊value / period⌋ = k at hlt
  split
  · rename_i hsnap
    refine ⟨k + 1, ?_, ?_⟩
    · push_cast
      linarith
    · push_cast
      linarith
  · exact ⟨k, by norm_num, by norm_num⟩

/-- Two numbers that are folded to one differ by periods, up to what is snapped to zero. -/
theorem exists_of_fold_eq {x y period : ℝ} (hperiod : 0 < period)
    (h : fold x period = fold y period) : ∃ k : Int, |x - y - k * period| < 1e-9 := by
  obtain ⟨k, hk, hk'⟩ := exists_fold_sub hperiod x
  obtain ⟨l, hl, hl'⟩ := exists_fold_sub hperiod y
  rw [h] at hk hk'
  refine ⟨k - l, abs_lt.2 ⟨?_, ?_⟩⟩
  · push_cast
    linarith
  · push_cast
    linarith

/-- A full turn leads back to the same place. -/
def IsTurnable (place : ℝ → ℝ → Vec3 ℝ) : Prop :=
  ∀ angle z (k : Int), place (angle + k * (2 * Real.pi)) z = place angle z

/-- Angles that differ by at least some step, also after full turns, lead to different places. -/
def IsSeparating (step : ℝ) (place : ℝ → ℝ → Vec3 ℝ) : Prop :=
  ∀ angle angle' z z', place angle z = place angle' z' →
    ∃ k : Int, |angle - angle' - k * (2 * Real.pi)| < step

theorem isTurnable_rolledPlace (radius : ℝ) : IsTurnable (rolledPlace radius) := by
  intro angle z k
  have hcos : Scalar.cos (angle + k * (2 * Real.pi)) = Scalar.cos angle :=
    Real.cos_add_int_mul_two_pi angle k
  have hsin : Scalar.sin (angle + k * (2 * Real.pi)) = Scalar.sin angle :=
    Real.sin_add_int_mul_two_pi angle k
  rw [rolledPlace, hcos, hsin, rolledPlace]

theorem isTurnable_flatPlace {radius circumference : ℝ}
    (h : radius * (2 * Real.pi) = circumference) : IsTurnable (flatPlace radius circumference) := by
  intro angle z k
  rw [flatPlace, mul_add, mul_left_comm, h, fold_add_mul, flatPlace]

theorem isSeparating_rolledPlace {radius step : ℝ} (hradius : 0 < radius) (hstep : 0 < step) :
    IsSeparating step (rolledPlace radius) := by
  intro angle angle' z z' h
  have hcos : Real.cos angle = Real.cos angle' :=
    mul_left_cancel₀ hradius.ne' (congrArg Vec3.x h)
  have hsin : Real.sin angle = Real.sin angle' :=
    mul_left_cancel₀ hradius.ne' (congrArg Vec3.y h)
  obtain ⟨k, hk⟩ := Real.Angle.angle_eq_iff_two_pi_dvd_sub.1 (Real.Angle.cos_sin_inj hcos hsin)
  refine ⟨k, ?_⟩
  rw [hk, mul_comm, sub_self, abs_zero]
  exact hstep

theorem isSeparating_flatPlace {radius circumference step : ℝ} (hradius : 0 < radius)
    (h : radius * (2 * Real.pi) = circumference) (hstep : 1e-9 ≤ radius * step) :
    IsSeparating step (flatPlace radius circumference) := by
  intro angle angle' z z' heq
  have hpos : 0 < circumference := by
    rw [← h]
    positivity
  obtain ⟨k, hk⟩ := exists_of_fold_eq hpos (congrArg Vec3.x heq)
  refine ⟨k, lt_of_mul_lt_mul_left ?_ hradius.le⟩
  rw [← abs_of_pos hradius, ← abs_mul, abs_of_pos hradius]
  refine lt_of_lt_of_le ?_ hstep
  rwa [← h, show radius * angle - radius * angle' - k * (radius * (2 * Real.pi)) =
    radius * (angle - angle' - k * (2 * Real.pi)) by ring] at hk

/-! ## The atoms of a unit cell -/

theorem length_screwSites {α : Type} [Scalar α] (c : Chirality) (bond : α) (basis : Basis)
    (place : α → α → Vec3 α) :
    (screwSites c bond basis place).length = 2 * c.hexagons.toNat := by
  unfold screwSites
  simp [List.length_flatMap, mul_comm]

/-- The pair of atoms after some turns of the screw. -/
theorem getElem?_screwSites (c : Chirality) (bond : ℝ) (basis : Basis) (place : ℝ → ℝ → Vec3 ℝ)
    {i : Nat} (hi : i < c.hexagons) :
    (screwSites c bond basis place)[2 * i]? =
        some (basis.first, place (i * c.psi) (fold (i * c.tau bond) (c.axialPeriod bond))) ∧
      (screwSites c bond basis place)[2 * i + 1]? =
        some (basis.second, place (i * c.psi + c.dpsi bond)
          (fold (i * c.tau bond - c.dtau bond) (c.axialPeriod bond))) := by
  have hrange : (List.range c.hexagons.toNat)[i]? = some i := List.getElem?_range (by omega)
  unfold screwSites
  constructor
  · refine (getElem?_flatMap_of_length (n := 2) (k := 0) (fun _ => rfl) (by decide) _ i).trans ?_
    rw [hrange]
    simp
  · refine (getElem?_flatMap_of_length (n := 2) (k := 1) (fun _ => rfl) (by decide) _ i).trans ?_
    rw [hrange]
    simp

namespace Chirality

/-- **Some atoms are one pair for each hexagon.** A hexagon lies some turns around and some
periods along the tube; of the atoms there is one pair, that of the power of the screw that
reaches it, and the pair is at the place of the hexagon. -/
def IsCoveredBy (c : Chirality) (bond : ℝ) (basis : Basis) (place : ℝ → ℝ → Vec3 ℝ)
    (atoms : List (Atom ℝ)) : Prop :=
  atoms.length = 2 * c.hexagons.toNat ∧
    ∀ a b : Int, ∃! i : Nat, i < c.hexagons ∧ c.Reaches i a b ∧
      ∃ x y : ℝ, a = x * c.n + y * c.t1 ∧ b = x * c.m + y * c.t2 ∧
        atoms[2 * i]? = some (Atom.placed basis.first (place (x * (2 * Real.pi))
          (fold (y * c.axialPeriod bond) (c.axialPeriod bond)))) ∧
        atoms[2 * i + 1]? = some (Atom.placed basis.second (place (x * (2 * Real.pi) + c.dpsi bond)
          (fold (y * c.axialPeriod bond - c.dtau bond) (c.axialPeriod bond))))

/-- No two pairs have the same first or the same second atom. -/
def IsWithoutRepeats (c : Chirality) (atoms : List (Atom ℝ)) : Prop :=
  ∀ i j : Nat, i < c.hexagons → j < c.hexagons →
    atoms[2 * i]? = atoms[2 * j]? ∨ atoms[2 * i + 1]? = atoms[2 * j + 1]? → i = j

variable {c : Chirality} {place : ℝ → ℝ → Vec3 ℝ}

theorem isCoveredBy_of_isTurnable (hplace : IsTurnable place) (bond : ℝ) (basis : Basis) :
    c.IsCoveredBy bond basis place
      ((screwSites c bond basis place).map fun (element, r) => Atom.placed element r) := by
  refine ⟨by rw [List.length_map, length_screwSites], fun a b => ?_⟩
  obtain ⟨i, ⟨hi, u, v, ha, hb⟩, huniq⟩ := c.existsUnique_reaches a b
  refine ⟨i, ⟨hi, ⟨u, v, ha, hb⟩, i / c.hexagons + u,
    i * c.screwPitch / c.hexagons + v, ?_⟩, fun j hj => huniq j ⟨hj.1, hj.2.1⟩⟩
  have hN := c.hexagons_real_pos
  obtain ⟨hp, hq⟩ := c.hexagons_mul_symmetryVector
  have hp' : (c.hexagons : ℝ) * c.symmetryVector.1 = c.n + c.screwPitch * c.t1 := by
    exact_mod_cast hp
  have hq' : (c.hexagons : ℝ) * c.symmetryVector.2 = c.m + c.screwPitch * c.t2 := by
    exact_mod_cast hq
  have hangle : (i / c.hexagons + u) * (2 * Real.pi) = i * c.psi + u * (2 * Real.pi) := by
    rw [← c.hexagons_mul_psi]
    field_simp
  have hheight : (i * c.screwPitch / c.hexagons + v) * c.axialPeriod bond =
      i * c.tau bond + v * c.axialPeriod bond := by
    rw [add_mul, mul_div_assoc, mul_assoc, div_mul_eq_mul_div, ← c.hexagons_mul_tau]
    field_simp
  obtain ⟨hfirst, hsecond⟩ := getElem?_screwSites c bond basis place hi
  refine ⟨?_, ?_, ?_, ?_⟩
  · rw [ha]
    push_cast
    field_simp
    linear_combination (i : ℝ) * hp'
  · rw [hb]
    push_cast
    field_simp
    linear_combination (i : ℝ) * hq'
  · rw [List.getElem?_map, hfirst, hangle, hheight, fold_add_mul, hplace]
    rfl
  · rw [List.getElem?_map, hsecond, hangle, hheight, add_sub_right_comm, fold_add_mul,
      add_right_comm, hplace]
    rfl

/-- Different turns of the screw do not lead to one angle. -/
theorem eq_of_angles {i j : Nat} (offset : ℝ) (hi : i < c.hexagons) (hj : j < c.hexagons)
    (h : ∃ k : Int, |(i * c.psi + offset) - (j * c.psi + offset) - k * (2 * Real.pi)| < c.psi) :
    i = j := by
  obtain ⟨k, hk⟩ := h
  have hpsi : (0 : ℝ) < c.psi := (abs_nonneg _).trans_lt hk
  -- all angles are multiples of the angle of the screw
  have hmul : (i * c.psi + offset) - (j * c.psi + offset) - k * (2 * Real.pi) =
      ((i - j - k * c.hexagons : Int) : ℝ) * c.psi := by
    rw [← c.hexagons_mul_psi]
    push_cast
    ring
  rw [hmul, abs_mul, abs_of_pos hpsi] at hk
  have hone : |((i - j - k * c.hexagons : Int) : ℝ)| < 1 := by
    by_contra hge
    nlinarith
  have hzero : (i : Int) - j - k * c.hexagons = 0 := by
    rw [← Int.abs_lt_one_iff]
    exact_mod_cast hone
  have hmod : (i : Int) % c.hexagons = j % c.hexagons := by
    rw [show (i : Int) = j + k * c.hexagons by omega, Int.add_mul_emod_self_right]
  rw [Int.emod_eq_of_lt (by omega) hi, Int.emod_eq_of_lt (by omega) hj] at hmod
  omega

theorem isWithoutRepeats_of_isSeparating (hplace : IsSeparating c.psi place) (bond : ℝ)
    (basis : Basis) : c.IsWithoutRepeats
      ((screwSites c bond basis place).map fun (element, r) => Atom.placed element r) := by
  intro i j hi hj h
  obtain ⟨hfirst, hsecond⟩ := getElem?_screwSites c bond basis place hi
  obtain ⟨hfirst', hsecond'⟩ := getElem?_screwSites c bond basis place hj
  rcases h with h | h
  · rw [List.getElem?_map, List.getElem?_map, hfirst, hfirst'] at h
    have heq := congrArg Atom.position (Option.some.inj h)
    refine eq_of_angles 0 hi hj ?_
    rw [add_zero, add_zero]
    exact hplace _ _ _ _ heq
  · rw [List.getElem?_map, List.getElem?_map, hsecond, hsecond'] at h
    have heq := congrArg Atom.position (Option.some.inj h)
    exact eq_of_angles _ hi hj (hplace _ _ _ _ heq)

/-- **The screw of a tube reaches each hexagon once**: as whole numbers, and as the atoms of the
unit cell, rolled up or flat. No pair stands on another, as long as the tube has a size and, where
it is flat, a turn of the screw is not so short that its end is snapped to its begin. -/
theorem screw_reaches_each_hexagon_once (c : Chirality) :
    (c.hexagons * c.symmetryVector.1 = c.n + c.screwPitch * c.t1 ∧
      c.hexagons * c.symmetryVector.2 = c.m + c.screwPitch * c.t2) ∧
    (∀ a b : Int, ∃! i : Nat, i < c.hexagons ∧ c.Reaches i a b) ∧
    ∀ (bond : ℝ) (basis : Basis),
      c.IsCoveredBy bond basis (rolledPlace (c.radius bond)) (rolledAtoms c bond basis) ∧
      c.IsCoveredBy bond basis (flatPlace (c.radius bond) (c.circumference bond))
        (flatAtoms c bond basis) ∧
      (0 < bond → c.IsWithoutRepeats (rolledAtoms c bond basis)) ∧
      (0 < bond → 1e-9 ≤ c.radius bond * c.psi →
        c.IsWithoutRepeats (flatAtoms c bond basis)) := by
  refine ⟨c.hexagons_mul_symmetryVector, c.existsUnique_reaches, fun bond basis => ⟨?_, ?_, ?_, ?_⟩⟩
  · exact isCoveredBy_of_isTurnable (isTurnable_rolledPlace _) bond basis
  · exact isCoveredBy_of_isTurnable (isTurnable_flatPlace (c.radius_mul_two_pi bond)) bond basis
  · intro hbond
    exact isWithoutRepeats_of_isSeparating
      (isSeparating_rolledPlace (c.radius_pos hbond) c.psi_pos) bond basis
  · intro hbond hstep
    exact isWithoutRepeats_of_isSeparating (isSeparating_flatPlace (c.radius_pos hbond)
      (c.radius_mul_two_pi bond) hstep) bond basis

end Chirality

end Honeycomb
