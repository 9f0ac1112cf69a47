import Honeycomb.Neighbor.Norm
import Honeycomb.Proofs.Number.Rank

/-!
# Distances of doubles

Rounding never turns a sum of squares or of magnitudes into a negative number, nor into something
that is not a number.

* `IsNumber`, `IsNonneg` — floats that are numbers, and those that are not negative.
  `isNonneg_add`, `isNonneg_mul_self`, `isNonneg_sqrt` — what stays so.
  `isNumber_unpack_pack`, `isNonneg_unpack_pack` — packing a result keeps it so, also when the result
  is too large. `isNonneg_float_add` and others — what this means for floats.
* `Double.zero_le_iff` — the same for doubles, by their parts. `Double.add_nonneg`,
  `Double.abs_sub_nonneg`, `Double.distance_nonneg` — and for what is calculated from them.
* `Norm.HasPowers` — what is known of the powers that a norm is calculated with.

Principal result: `Norm.distance_nonneg` — finite points have a distance in each norm, which is not
negative.
-/

set_option autoImplicit false

namespace Honeycomb

open Float.Model Float.Model.UnpackedFloat

/-! ## Operations on parts -/

/-- The float is a number, infinite ones included. -/
def IsNumber : UnpackedFloat → Prop
  | .notANumber => False
  | _ => True

/-- The float is a number that is not negative. Both zeros are such numbers. -/
def IsNonneg : UnpackedFloat → Prop
  | .infinity .positive | .zero _ | .finite .positive _ _ _ => True
  | _ => False

/-- The float is neither infinite nor something that is not a number. -/
def IsBounded : UnpackedFloat → Prop
  | .zero _ | .finite _ _ _ _ => True
  | _ => False

section

variable {spec : Format} {a b : UnpackedFloat}

theorem IsNonneg.isNumber (h : IsNonneg a) : IsNumber a := by
  cases a with
  | notANumber => exact h
  | _ => trivial

theorem isNumber_roundWithAccuracy (s : Sign) (m : Nat) (e : Int) (accuracy : Accuracy) :
    IsNumber (roundWithAccuracy spec s m e accuracy) := by
  unfold roundWithAccuracy
  dsimp only
  split <;> trivial

theorem isNonneg_roundWithAccuracy (m : Nat) (e : Int) (accuracy : Accuracy) :
    IsNonneg (roundWithAccuracy spec .positive m e accuracy) := by
  unfold roundWithAccuracy
  dsimp only
  split <;> trivial

theorem isNumber_normalize (m e : Int) (s : Sign) : IsNumber (UnpackedFloat.normalize spec m e s) := by
  unfold UnpackedFloat.normalize
  split
  · exact isNumber_roundWithAccuracy ..
  · trivial
  · exact isNumber_roundWithAccuracy ..

theorem isNonneg_normalize {m : Int} (hm : 0 ≤ m) (e : Int) (s : Sign) :
    IsNonneg (UnpackedFloat.normalize spec m e s) := by
  unfold UnpackedFloat.normalize
  split
  · rename_i hneg
    exact absurd (Int.compare_eq_lt.1 hneg) (by omega)
  · trivial
  · exact isNonneg_roundWithAccuracy ..

theorem isNonneg_add (ha : IsNonneg a) (hb : IsNonneg b) :
    IsNonneg (UnpackedFloat.add spec a b) := by
  rcases a with (_ | _) | _ | (_ | _) | ⟨_ | _, m, e, h⟩ <;>
    rcases b with (_ | _) | _ | (_ | _) | ⟨_ | _, m', e', h'⟩ <;> try trivial
  exact isNonneg_normalize (Int.add_nonneg (Int.natCast_nonneg _) (Int.natCast_nonneg _)) _ _

theorem isNumber_sub (ha : IsBounded a) (hb : IsBounded b) :
    IsNumber (UnpackedFloat.sub spec a b) := by
  rcases a with _ | _ | (_ | _) | ⟨_, m, e, h⟩ <;>
    rcases b with _ | _ | (_ | _) | ⟨_, m', e', h'⟩ <;> try trivial
  exact isNumber_normalize _ _ _

/-- A square is not negative, whatever the sign. -/
theorem isNonneg_mul_self (ha : IsNumber a) : IsNonneg (UnpackedFloat.mul spec a a) := by
  rcases a with (_ | _) | _ | _ | ⟨_ | _, m, e, h⟩ <;> try trivial
  · exact isNonneg_roundWithAccuracy ..
  · exact isNonneg_roundWithAccuracy ..

theorem isNonneg_sqrt (ha : IsNonneg a) : IsNonneg (UnpackedFloat.sqrt spec a) := by
  rcases a with (_ | _) | _ | _ | ⟨_ | _, m, e, h⟩ <;> try trivial
  exact isNonneg_roundWithAccuracy ..

end

/-! ## Packing results -/

section

variable {u : UnpackedFloat} {s : Sign} {e m : Nat}

theorem isNumber_assemble (h : e = 2047 → m = 0) : IsNumber (assemble s e m) := by
  unfold assemble
  split_ifs <;> simp_all [IsNumber]

theorem isNonneg_assemble (h : e = 2047 → m = 0) : IsNonneg (assemble .positive e m) := by
  unfold assemble
  split_ifs <;> simp_all [IsNonneg]

theorem isBounded_assemble (h : e ≠ 2047) : IsBounded (assemble s e m) := by
  unfold assemble
  split_ifs <;> trivial

/-- What was packed is read as its parts. -/
theorem unpack_packComponents (he : e < 2 ^ 11) (hm : m < 2 ^ 52) :
    UnpackedFloat.unpack .binary64
      (packComponents .binary64 s (BitVec.ofNat 11 e) (BitVec.ofNat 52 m)) = assemble s e m := by
  rw [unpack_eq, toNat_packComponents he hm, signOf_packed he hm]
  congr 1
  · omega
  · omega

/-- A finite float is packed as a number of the same sign. What is too large becomes infinite. -/
theorem exists_unpack_pack_finite (s : Sign) (m : Nat) (e : Int) (h : 0 < m) :
    ∃ e' m' : Nat, (e' = 2047 → m' = 0) ∧
      UnpackedFloat.unpack .binary64 (UnpackedFloat.pack .binary64 (.finite s m e h)) =
        assemble s e' m' := by
  have hmod : m % 2 ^ 52 < 2 ^ 52 := Nat.mod_lt _ (by decide)
  have hfield : BitVec.ofNat 52 m = BitVec.ofNat 52 (m % 2 ^ 52) := by
    rw [← BitVec.toNat_inj, BitVec.toNat_ofNat, BitVec.toNat_ofNat, Nat.mod_mod]
  unfold UnpackedFloat.pack
  dsimp only
  split_ifs with hlarge
  · exact ⟨2047, 0, fun _ => rfl, unpack_packComponents (by decide) (by decide)⟩
  · have hbiased : (e + Format.binary64.exponentBias +
        Format.binary64.mantissaBitsWithoutImplicit).toNat + 1 < 2 ^ 11 := Nat.lt_of_not_le hlarge
    rw [hfield]
    exact ⟨_, _, fun hall => by omega, unpack_packComponents (by omega) hmod⟩
  · rw [hfield]
    exact ⟨0, _, by simp, unpack_packComponents (by decide) hmod⟩

theorem unpack_pack_zero (s : Sign) :
    UnpackedFloat.unpack .binary64 (UnpackedFloat.pack .binary64 (.zero s)) = .zero s :=
  unpack_pack_assemble (e := 0) (m := 0) (by decide) (by decide)

theorem unpack_pack_infinity (s : Sign) :
    UnpackedFloat.unpack .binary64 (UnpackedFloat.pack .binary64 (.infinity s)) = .infinity s :=
  unpack_pack_assemble (e := 2047) (m := 0) (by decide) (by decide)

theorem isNumber_unpack_pack (h : IsNumber u) :
    IsNumber (UnpackedFloat.unpack .binary64 (UnpackedFloat.pack .binary64 u)) := by
  cases u with
  | notANumber => exact h.elim
  | zero s => rwa [unpack_pack_zero]
  | infinity s => rwa [unpack_pack_infinity]
  | finite s m e hm =>
    obtain ⟨e', m', hparts, heq⟩ := exists_unpack_pack_finite s m e hm
    rw [heq]
    exact isNumber_assemble hparts

theorem isNonneg_unpack_pack (h : IsNonneg u) :
    IsNonneg (UnpackedFloat.unpack .binary64 (UnpackedFloat.pack .binary64 u)) := by
  cases u with
  | notANumber => exact h.elim
  | zero s => rwa [unpack_pack_zero]
  | infinity s => rwa [unpack_pack_infinity]
  | finite s m e hm =>
    obtain ⟨e', m', hparts, heq⟩ := exists_unpack_pack_finite s m e hm
    cases s with
    | negative => exact h.elim
    | positive =>
      rw [heq]
      exact isNonneg_assemble hparts

end

/-! ## Floats -/

section

variable {a b : Float}

theorem isNonneg_float_add (ha : IsNonneg a.toModel.unpack) (hb : IsNonneg b.toModel.unpack) :
    IsNonneg (a + b).toModel.unpack :=
  isNonneg_unpack_pack (isNonneg_add ha hb)

theorem isNumber_float_sub (ha : IsBounded a.toModel.unpack) (hb : IsBounded b.toModel.unpack) :
    IsNumber (a - b).toModel.unpack :=
  isNumber_unpack_pack (isNumber_sub ha hb)

theorem isNonneg_float_mul_self (ha : IsNumber a.toModel.unpack) :
    IsNonneg (a * a).toModel.unpack :=
  isNonneg_unpack_pack (isNonneg_mul_self ha)

theorem isNonneg_float_sqrt (ha : IsNonneg a.toModel.unpack) : IsNonneg a.sqrt.toModel.unpack :=
  isNonneg_unpack_pack (isNonneg_sqrt ha)

end

/-! ## Doubles -/

namespace Double

variable {x y x' y' z z' : Double}

/-- The bit pattern of a float keeps its parts. -/
theorem parts_toBits (r : Float) : (⟨r.toBits⟩ : Double).parts = r.toModel.unpack :=
  unpack_pack_unpack r.toModel.toBits.toBitVec

/-- **A double is not negative** if its parts are those of a number that is not. -/
theorem zero_le_iff : 0 ≤ x ↔ IsNonneg x.parts := by
  have hzero : key? 0 = some (toLex (0, toLex (0, 0))) := rfl
  simp only [le_iff, hzero, key?_eq_orderKey? x, Option.mem_some_iff, exists_eq_left']
  rcases x.parts with (_ | _) | _ | _ | ⟨_ | _, m, e, h⟩ <;>
    simp [orderKey?, IsNonneg, Prod.Lex.toLex_le_toLex]

theorem isBounded_parts (h : x.isFinite) : IsBounded x.parts := by
  rw [parts_eq]
  refine isBounded_assemble ?_
  have h := isFinite_iff.1 h
  rw [natAbs_place] at h
  omega

theorem isNumber_parts_iff : IsNumber x.parts ↔ x.isNaN = false := by
  have hnumber (u : UnpackedFloat) : IsNumber u ↔ (orderKey? u).isSome := by
    rcases u with (_ | _) | _ | _ | ⟨_ | _, m, e, h⟩ <;> simp [orderKey?, IsNumber]
  rw [hnumber, ← key?_eq_orderKey?, key?_eq]
  cases x.isNaN <;> simp

theorem toBits_ne_nan {r : Float} (h : IsNumber r.toModel.unpack) : r.toBits ≠ nan.bits := by
  intro hnan
  rw [← parts_toBits, hnan] at h
  exact h

/-- A result that is a number keeps the parts that were calculated. -/
theorem parts_map₂ {f : Float → Float → Float}
    (h : IsNumber (f x.toFloat y.toFloat).toModel.unpack) :
    (map₂ f x y).parts = (f x.toFloat y.toFloat).toModel.unpack := by
  unfold map₂
  rw [if_neg (toBits_ne_nan h), parts_toBits]

theorem add_nonneg (hx : 0 ≤ x) (hy : 0 ≤ y) : 0 ≤ x + y := by
  rw [zero_le_iff] at *
  have hsum : IsNonneg (x.toFloat + y.toFloat).toModel.unpack := isNonneg_float_add hx hy
  change IsNonneg (map₂ Float.add x y).parts
  exact (parts_map₂ hsum.isNumber).symm ▸ hsum

theorem abs_nonneg (hx : x.isNaN = false) : 0 ≤ x.abs := by
  rw [← Bool.not_eq_true, isNaN_iff, natAbs_place] at hx
  have hbits := toNat_abs_bits x
  have hplace : x.abs.place = (x.bits.toNat % 2 ^ 63 : Nat) := by
    unfold place
    rw [if_pos (by omega), hbits]
  have hzero : (0 : Double).place = 0 := rfl
  rw [le_iff_place, hplace, hzero]
  omega

/-- The difference of finite doubles is a number. -/
theorem isNumber_sub_toFloat (hx : x.isFinite) (hy : y.isFinite) :
    IsNumber (x.toFloat - y.toFloat).toModel.unpack :=
  isNumber_float_sub (isBounded_parts hx) (isBounded_parts hy)

theorem abs_sub_nonneg (hx : x.isFinite) (hy : y.isFinite) : 0 ≤ (x - y).abs := by
  have hnumber := isNumber_sub_toFloat hx hy
  apply abs_nonneg
  rw [← isNumber_parts_iff]
  change IsNumber (map₂ Float.sub x y).parts
  exact (parts_map₂ hnumber).symm ▸ hnumber

theorem greater_nonneg (hx : 0 ≤ x) (hy : 0 ≤ y) : 0 ≤ Scalar.greater x y := by
  unfold Scalar.greater
  split_ifs
  · exact hx
  · exact hy
  · exact hx

/-- **Distances are not negative.** -/
theorem distance_nonneg (hx : x.isFinite) (hy : y.isFinite) (hz : z.isFinite) (hx' : x'.isFinite)
    (hy' : y'.isFinite) (hz' : z'.isFinite) : 0 ≤ distance x y z x' y' z' := by
  have ha := isNonneg_float_mul_self (isNumber_sub_toFloat hx hx')
  have hb := isNonneg_float_mul_self (isNumber_sub_toFloat hy hy')
  have hc := isNonneg_float_mul_self (isNumber_sub_toFloat hz hz')
  have hroot := isNonneg_float_sqrt (isNonneg_float_add (isNonneg_float_add ha hb) hc)
  unfold distance
  dsimp only
  rw [if_neg (toBits_ne_nan hroot.isNumber), zero_le_iff, parts_toBits]
  exact hroot

end Double

/-! ## Norms -/

namespace Norm

/-- What is known of the powers that a norm is calculated with: those of a number that is not negative
are not negative. -/
def HasPowers : Norm Double → Prop
  | minkowski e => ∀ a : Double, 0 ≤ a → 0 ≤ Scalar.pow a e ∧ 0 ≤ Scalar.pow a (1 / e)
  | _ => True

/-- **Finite points have a distance in each norm**, which is not negative. -/
theorem distance_nonneg {norm : Norm Double} (hnorm : norm.HasPowers) {p q : Vec3 Double}
    (hp : p.isFinite) (hq : q.isFinite) : 0 ≤ norm.distance p q := by
  simp only [Vec3.isFinite, Vec3.all, Bool.and_eq_true] at hp hq
  obtain ⟨⟨hx, hy⟩, hz⟩ := hp
  obtain ⟨⟨hx', hy'⟩, hz'⟩ := hq
  have hdx := Double.abs_sub_nonneg hx hx'
  have hdy := Double.abs_sub_nonneg hy hy'
  have hdz := Double.abs_sub_nonneg hz hz'
  cases norm with
  | manhattan => exact Double.add_nonneg (Double.add_nonneg hdx hdy) hdz
  | euclidean => exact Double.distance_nonneg hx hy hz hx' hy' hz'
  | chebyshev =>
    have hzero : (0 : Double) ≤ 0 := by decide
    exact Double.greater_nonneg (Double.greater_nonneg (Double.greater_nonneg hzero hdx) hdy) hdz
  | minkowski e =>
    have hx := (hnorm _ hdx).1
    have hy := (hnorm _ hdy).1
    have hz := (hnorm _ hdz).1
    exact (hnorm _ (Double.add_nonneg (Double.add_nonneg hx hy) hz)).2

end Norm

end Honeycomb
