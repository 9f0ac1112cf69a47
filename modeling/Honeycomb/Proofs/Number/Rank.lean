import Honeycomb.Proofs.Number.Order

/-!
# Sorted numbers

Comparisons and the order used for sorting agree on the numbers that compare at all.

* `assemble` — a float by its sign and the two parts of its magnitude. `unpack_eq`,
  `unpack_pack_unpack` — a bit pattern is read as its parts, and packing what was read loses
  nothing of it.
* `magnitudeKey`, `keyAt` — the place of a float among all numbers, by its bits.
* `Double.parts` — what the bit pattern of a double is read as.
* `Double.place` — the place of a double, counted in bit patterns from zero. `Double.le_iff_place`,
  `Double.lt_iff_place` — doubles compare as their places do.
* `SortedScalar` — what is sorted stands in the order of comparisons.

Principal result: the instances of `SortedScalar` on doubles and on real numbers.
-/

set_option autoImplicit false

namespace Honeycomb

open Float.Model Float.Model.UnpackedFloat

/-! ## Parts of a bit pattern -/

/-- The sign in a bit pattern. -/
def signOf (n : Nat) : Sign :=
  if n < 2 ^ 63 then .positive else .negative

/-- The float with a sign, an exponent field and a mantissa field. -/
def assemble (s : Sign) (e m : Nat) : UnpackedFloat :=
  if e = 2047 then if m = 0 then .infinity s else .notANumber
  else if e = 0 then if h : 0 < m then .finite s m (-1074) h else .zero s
  else .finite s (2 ^ 52 + m) (e - 1075) (by omega)

theorem toNat_append {w v : Nat} (x : BitVec w) (y : BitVec v) :
    (x ++ y).toNat = x.toNat * 2 ^ v + y.toNat := by
  rw [BitVec.toNat_append, ← Nat.shiftLeft_add_eq_or_of_lt y.isLt, Nat.shiftLeft_eq]

section

variable (b : BitVec Format.binary64.numBits)

theorem toNat_unpackMantissa :
    (unpackMantissa b).toNat = b.toNat % 2 ^ 52 := by
  simp [unpackMantissa, BitVec.extractLsb]

theorem toNat_unpackExponent :
    (unpackExponent b).toNat = b.toNat / 2 ^ 52 % 2 ^ 11 := by
  simp [unpackExponent, BitVec.extractLsb, Nat.shiftRight_eq_div_pow]

theorem ofBitVec_unpackSign :
    Sign.ofBitVec (unpackSign b) = signOf b.toNat := by
  have hbit : (unpackSign b).toNat = b.toNat / 2 ^ 63 % 2 := by
    simp [unpackSign, BitVec.extractLsb, Nat.shiftRight_eq_div_pow]
  have hlt : b.toNat < 2 ^ 64 := b.isLt
  unfold Sign.ofBitVec signOf
  refine if_congr ?_ rfl rfl
  rw [← BitVec.toNat_inj, hbit]
  change _ = 0 ↔ _
  omega

/-- A bit pattern is read as its parts. -/
theorem unpack_eq : UnpackedFloat.unpack .binary64 b =
    assemble (signOf b.toNat) (b.toNat / 2 ^ 52 % 2 ^ 11) (b.toNat % 2 ^ 52) := by
  have hall : unpackExponent b = -1#_ ↔ b.toNat / 2 ^ 52 % 2 ^ 11 = 2047 := by
    rw [← BitVec.toNat_inj, toNat_unpackExponent]
    rfl
  have hnone : unpackExponent b = 0#_ ↔ b.toNat / 2 ^ 52 % 2 ^ 11 = 0 := by
    rw [← BitVec.toNat_inj, toNat_unpackExponent]
    rfl
  have hzero : unpackMantissa b = 0#_ ↔ b.toNat % 2 ^ 52 = 0 := by
    rw [← BitVec.toNat_inj, toNat_unpackMantissa]
    rfl
  unfold UnpackedFloat.unpack assemble
  dsimp only
  rw [ofBitVec_unpackSign]
  refine if_congr hall (if_congr hzero rfl rfl) ?_
  by_cases hsubnormal : b.toNat / 2 ^ 52 % 2 ^ 11 = 0
  · rw [if_pos hsubnormal, if_pos (hnone.2 hsubnormal)]
    by_cases hm : b.toNat % 2 ^ 52 = 0
    · rw [dif_pos (hzero.2 hm), dif_neg (by omega)]
    · rw [dif_neg (mt hzero.1 hm), dif_pos (by omega)]
      congr 1
      rw [toNat_unpackExponent, hsubnormal]
      rfl
  · rw [if_neg (mt hnone.1 hsubnormal), if_neg hsubnormal]
    congr 1
    · rw [toNat_append, toNat_unpackMantissa]
      rfl
    · rw [toNat_unpackExponent]
      rfl

end

section

variable {s : Sign} {e m : Nat}

theorem log2_two_pow_add (hm : m < 2 ^ 52) : (2 ^ 52 + m).log2 = 52 := by
  rw [Nat.log2_eq_iff (by omega)]
  omega

/-- What has parts is packed as these parts, unless it is not a number. -/
theorem pack_assemble (he : e < 2 ^ 11) (hm : m < 2 ^ 52) :
    UnpackedFloat.pack .binary64 (assemble s e m) =
      if e = 2047 ∧ m ≠ 0 then packedNaN .binary64
      else packComponents .binary64 s (BitVec.ofNat 11 e) (BitVec.ofNat 52 m) := by
  unfold assemble
  by_cases hinfinite : e = 2047
  · rw [if_pos hinfinite, hinfinite]
    by_cases hzero : m = 0
    · rw [if_pos hzero, if_neg (by simp [hzero]), hzero]
      rfl
    · rw [if_neg hzero, if_pos ⟨rfl, hzero⟩]
      rfl
  · rw [if_neg hinfinite, if_neg fun h : e = 2047 ∧ m ≠ 0 => hinfinite h.1]
    by_cases hsubnormal : e = 0
    · rw [if_pos hsubnormal, hsubnormal]
      by_cases hpos : 0 < m
      · have hlog : m.log2 < 52 := (Nat.log2_lt hpos.ne').2 hm
        have hshort : ¬m.log2 + 1 = Format.binary64.mantissaBits := by
          change ¬m.log2 + 1 = 53
          omega
        rw [dif_pos hpos, UnpackedFloat.pack, if_neg (by decide), if_neg hshort]
      · obtain rfl : m = 0 := by omega
        rfl
    · have hbiased : ((e : Int) - 1075 + Format.binary64.exponentBias +
          Format.binary64.mantissaBitsWithoutImplicit).toNat = e := by
        change ((e : Int) - 1075 + 1023 + 52).toNat = e
        omega
      rw [if_neg hsubnormal, UnpackedFloat.pack]
      dsimp only
      rw [hbiased, log2_two_pow_add hm, if_neg (by omega), if_pos (by decide)]
      congr 1
      apply BitVec.eq_of_toNat_eq
      simp

theorem toNat_packComponents (he : e < 2 ^ 11) (hm : m < 2 ^ 52) :
    (packComponents .binary64 s (BitVec.ofNat 11 e) (BitVec.ofNat 52 m)).toNat =
      (s.toBitVec.toNat * 2 ^ 11 + e) * 2 ^ 52 + m := by
  unfold packComponents
  rw [toNat_append, toNat_append, BitVec.toNat_ofNat, BitVec.toNat_ofNat, Nat.mod_eq_of_lt he,
    Nat.mod_eq_of_lt hm]

theorem signOf_packed (he : e < 2 ^ 11) (hm : m < 2 ^ 52) :
    signOf ((s.toBitVec.toNat * 2 ^ 11 + e) * 2 ^ 52 + m) = s := by
  unfold signOf
  cases s with
  | negative =>
    rw [if_neg]
    change ¬(1 * 2 ^ 11 + e) * 2 ^ 52 + m < 2 ^ 63
    omega
  | positive =>
    rw [if_pos]
    change (0 * 2 ^ 11 + e) * 2 ^ 52 + m < 2 ^ 63
    omega

theorem unpack_pack_assemble (he : e < 2 ^ 11) (hm : m < 2 ^ 52) :
    UnpackedFloat.unpack .binary64 (UnpackedFloat.pack .binary64 (assemble s e m)) =
      assemble s e m := by
  rw [pack_assemble he hm]
  split
  · rename_i hnan
    rw [assemble, if_pos hnan.1, if_neg hnan.2]
    rfl
  · rw [unpack_eq, toNat_packComponents he hm, signOf_packed he hm]
    congr 1
    · omega
    · omega

end

/-- Packing what was read from a bit pattern loses nothing of it. -/
theorem unpack_pack_unpack (b : BitVec Format.binary64.numBits) :
    UnpackedFloat.unpack .binary64 (UnpackedFloat.pack .binary64
      (UnpackedFloat.unpack .binary64 b)) = UnpackedFloat.unpack .binary64 b := by
  rw [unpack_eq b]
  exact unpack_pack_assemble (Nat.mod_lt _ (by decide)) (Nat.mod_lt _ (by decide))

/-! ## Places by bits -/

/-- The place of a number that is not negative, by its magnitude. -/
def magnitudeKey (n : Nat) : Int ×ₗ Int ×ₗ Int :=
  if n / 2 ^ 52 = 2047 then toLex (2, toLex (0, 0))
  else if n = 0 then toLex (0, toLex (0, 0))
  else if n / 2 ^ 52 = 0 then toLex (1, toLex (-1074, n))
  else toLex (1, toLex ((n / 2 ^ 52 : Nat) - 1075, (2 ^ 52 + n % 2 ^ 52 : Nat)))

theorem magnitudeKey_zero : magnitudeKey 0 = 0 := rfl

theorem magnitudeKey_lt {n n' : Nat} (h : n < n') (hn : n' ≤ 2047 * 2 ^ 52) :
    magnitudeKey n < magnitudeKey n' := by
  unfold magnitudeKey
  split_ifs <;> simp [Prod.Lex.toLex_lt_toLex] <;> omega

theorem magnitudeKey_pos {n : Nat} (h : 0 < n) (hn : n ≤ 2047 * 2 ^ 52) : 0 < magnitudeKey n := by
  rw [← magnitudeKey_zero]
  exact magnitudeKey_lt h hn

/-- The place of a number, by its magnitude and its sign. -/
def keyAt (p : Int) : Int ×ₗ Int ×ₗ Int :=
  if 0 ≤ p then magnitudeKey p.toNat else -magnitudeKey (-p).toNat

/-- Up to infinity, places ascend as magnitudes do. -/
theorem keyAt_strictMonoOn : StrictMonoOn keyAt (Set.Icc (-(2047 * 2 ^ 52)) (2047 * 2 ^ 52)) := by
  intro p hp p' hp' h
  obtain ⟨hlow, -⟩ := Set.mem_Icc.1 hp
  obtain ⟨-, hhigh⟩ := Set.mem_Icc.1 hp'
  unfold keyAt
  by_cases hpos : 0 ≤ p
  · rw [if_pos hpos, if_pos (by omega)]
    exact magnitudeKey_lt (by omega) (by omega)
  · rw [if_neg hpos]
    by_cases hpos' : 0 ≤ p'
    · rw [if_pos hpos']
      have hneg : -magnitudeKey (-p).toNat < 0 :=
        neg_lt_zero.2 (magnitudeKey_pos (by omega) (by omega))
      rcases hpos'.eq_or_lt with rfl | hpos'
      · exact hneg
      · exact hneg.trans (magnitudeKey_pos (by omega) (by omega))
    · rw [if_neg hpos', neg_lt_neg_iff]
      exact magnitudeKey_lt (by omega) (by omega)

theorem orderKey?_assemble {s : Sign} {e m : Nat} (hm : m < 2 ^ 52) :
    orderKey? (assemble s e m) =
      if e = 2047 ∧ m ≠ 0 then none
      else match s with
        | .positive => some (magnitudeKey (e * 2 ^ 52 + m))
        | .negative => some (-magnitudeKey (e * 2 ^ 52 + m)) := by
  have hexponent : (e * 2 ^ 52 + m) / 2 ^ 52 = e := by omega
  have hmantissa : (e * 2 ^ 52 + m) % 2 ^ 52 = m := by omega
  unfold assemble magnitudeKey
  rw [hexponent, hmantissa]
  by_cases hinfinite : e = 2047
  · by_cases hzero : m = 0
    · rw [if_pos hinfinite, if_pos hzero, if_neg (by omega), if_pos hinfinite]
      cases s <;> rfl
    · rw [if_pos hinfinite, if_neg hzero, if_pos ⟨hinfinite, hzero⟩]
      rfl
  · rw [if_neg hinfinite, if_neg fun h : e = 2047 ∧ m ≠ 0 => hinfinite h.1, if_neg hinfinite]
    by_cases hsubnormal : e = 0
    · by_cases hpos : 0 < m
      · rw [if_pos hsubnormal, dif_pos hpos, if_neg (by omega), if_pos hsubnormal, hsubnormal,
          Nat.zero_mul, Nat.zero_add]
        cases s <;> rfl
      · rw [if_pos hsubnormal, dif_neg hpos, if_pos (by omega)]
        cases s <;> rfl
    · rw [if_neg hsubnormal, if_neg (by omega), if_neg hsubnormal]
      cases s <;> rfl

namespace Double

variable {a b : Double}

/-- The place of a double, counted in bit patterns from zero; both zeros have the same. -/
def place (x : Double) : Int :=
  if x.bits.toNat < 2 ^ 63 then x.bits.toNat else 2 ^ 63 - x.bits.toNat

theorem toNat_abs_bits (x : Double) : x.abs.bits.toNat = x.bits.toNat % 2 ^ 63 := by
  change (x.bits &&& 0x7fffffffffffffff).toNat = _
  rw [UInt64.toNat_and]
  exact Nat.and_two_pow_sub_one_eq_mod _ 63

theorem natAbs_place (x : Double) : x.place.natAbs = x.bits.toNat % 2 ^ 63 := by
  have hlt := x.bits.toNat_lt
  unfold place
  split <;> omega

theorem isNaN_iff : a.isNaN = true ↔ 2047 * 2 ^ 52 < a.place.natAbs := by
  unfold isNaN
  rw [decide_eq_true_iff, UInt64.lt_iff_toNat_lt, toNat_abs_bits, natAbs_place]
  rfl

theorem isFinite_iff : a.isFinite = true ↔ a.place.natAbs < 2047 * 2 ^ 52 := by
  unfold isFinite
  rw [decide_eq_true_iff, UInt64.lt_iff_toNat_lt, toNat_abs_bits, natAbs_place]
  rfl

/-- The parts of a double. -/
def parts (x : Double) : UnpackedFloat :=
  x.toFloat.toModel.unpack

theorem parts_eq (x : Double) : x.parts =
    assemble (signOf x.bits.toNat) (x.bits.toNat / 2 ^ 52 % 2 ^ 11) (x.bits.toNat % 2 ^ 52) :=
  (unpack_pack_unpack x.bits.toBitVec).trans (unpack_eq x.bits.toBitVec)

theorem key?_eq_orderKey? (x : Double) : x.key? = orderKey? x.parts :=
  rfl

/-- The place of a double is that of its bit pattern. -/
theorem key?_eq (x : Double) : x.key? = if x.isNaN then none else some (keyAt x.place) := by
  have hlt := x.bits.toNat_lt
  have hmagnitude : x.bits.toNat / 2 ^ 52 % 2 ^ 11 * 2 ^ 52 + x.bits.toNat % 2 ^ 52 =
      x.bits.toNat % 2 ^ 63 := by omega
  rw [key?_eq_orderKey?, parts_eq, orderKey?_assemble (Nat.mod_lt _ (by decide)), hmagnitude]
  refine if_congr ?_ rfl ?_
  · rw [isNaN_iff, natAbs_place]
    omega
  · unfold signOf place keyAt
    by_cases hpos : x.bits.toNat < 2 ^ 63
    · rw [if_pos hpos, if_pos hpos, if_pos (by omega), Nat.mod_eq_of_lt hpos]
      rfl
    · rw [if_neg hpos, if_neg hpos]
      by_cases hzero : x.bits.toNat = 2 ^ 63
      · -- negative zero has the place of zero
        rw [hzero]
        rfl
      · have hneg : (-(2 ^ 63 - (x.bits.toNat : Int))).toNat = x.bits.toNat % 2 ^ 63 := by omega
        rw [if_neg (by omega), hneg]

theorem mem_key?_iff {k : Int ×ₗ Int ×ₗ Int} :
    k ∈ a.key? ↔ a.place.natAbs ≤ 2047 * 2 ^ 52 ∧ k = keyAt a.place := by
  rw [key?_eq, Option.mem_def]
  cases h : a.isNaN with
  | true =>
    rw [isNaN_iff] at h
    simp
    omega
  | false =>
    rw [← Bool.not_eq_true, isNaN_iff] at h
    simp [eq_comm]
    omega

theorem place_mem_Icc (h : a.place.natAbs ≤ 2047 * 2 ^ 52) :
    a.place ∈ Set.Icc (-(2047 * 2 ^ 52)) (2047 * 2 ^ 52) := by
  rw [Set.mem_Icc]
  omega

/-- **Doubles compare as their places do**, as long as both are numbers: the magnitude of infinity
is `2047 * 2 ^ 52`, and beyond it there are none. -/
theorem le_iff_place : a ≤ b ↔ a.place.natAbs ≤ 2047 * 2 ^ 52 ∧ b.place.natAbs ≤ 2047 * 2 ^ 52 ∧
    a.place ≤ b.place := by
  simp only [le_iff, mem_key?_iff]
  constructor
  · rintro ⟨k, ⟨ha, rfl⟩, l, ⟨hb, rfl⟩, hle⟩
    exact ⟨ha, hb, (keyAt_strictMonoOn.le_iff_le (place_mem_Icc ha) (place_mem_Icc hb)).1 hle⟩
  · rintro ⟨ha, hb, hle⟩
    exact ⟨_, ⟨ha, rfl⟩, _, ⟨hb, rfl⟩,
      (keyAt_strictMonoOn.le_iff_le (place_mem_Icc ha) (place_mem_Icc hb)).2 hle⟩

theorem lt_iff_place : a < b ↔ a.place.natAbs ≤ 2047 * 2 ^ 52 ∧ b.place.natAbs ≤ 2047 * 2 ^ 52 ∧
    a.place < b.place := by
  simp only [lt_iff, mem_key?_iff]
  constructor
  · rintro ⟨k, ⟨ha, rfl⟩, l, ⟨hb, rfl⟩, hlt⟩
    exact ⟨ha, hb, (keyAt_strictMonoOn.lt_iff_lt (place_mem_Icc ha) (place_mem_Icc hb)).1 hlt⟩
  · rintro ⟨ha, hb, hlt⟩
    exact ⟨_, ⟨ha, rfl⟩, _, ⟨hb, rfl⟩,
      (keyAt_strictMonoOn.lt_iff_lt (place_mem_Icc ha) (place_mem_Icc hb)).2 hlt⟩

theorem toNat_rank (x : Double) : x.rank.toNat =
    if x.bits.toNat < 2 ^ 63 then x.bits.toNat + 2 ^ 63 else 2 ^ 64 - 1 - x.bits.toNat := by
  have hlt := x.bits.toNat_lt
  have hlow : x.bits < 0x8000000000000000 ↔ x.bits.toNat < 2 ^ 63 := UInt64.lt_iff_toNat_lt
  unfold rank
  by_cases hpos : x.bits.toNat < 2 ^ 63
  · have hhalf : (0x8000000000000000 : UInt64).toNat = 2 ^ 63 := rfl
    rw [if_pos (hlow.2 hpos), if_pos hpos, UInt64.toNat_add, hhalf]
    omega
  · have hall : (0xffffffffffffffff : UInt64).toNat = 2 ^ 64 - 1 := rfl
    rw [if_neg (mt hlow.1 hpos), if_neg hpos, UInt64.toNat_sub_of_le, hall]
    rw [UInt64.le_iff_toNat_le, hall]
    omega

/-- The order used for sorting is that of the places; it tells both zeros apart. -/
theorem place_le_of_rank_le (h : a.rank ≤ b.rank) : a.place ≤ b.place := by
  rw [UInt64.le_iff_toNat_le, toNat_rank, toNat_rank] at h
  have ha := a.bits.toNat_lt
  have hb := b.bits.toNat_lt
  unfold place
  split_ifs at h ⊢ <;> omega

end Double

/-! ## Sorting -/

/-- Numbers that compare with themselves compare as the order used for sorting tells. -/
class SortedScalar (α : Type) [Scalar α] : Prop extends OrderedScalar α where
  le_of_before : ∀ {a b : α}, a ≤ a → b ≤ b → Scalar.before a b = true → a ≤ b
  le_self_of_isFinite : ∀ {a : α}, Scalar.isFinite a = true → a ≤ a
  le_self_of_lt : ∀ {a b : α}, a < b → a ≤ a
  le_self_of_le : ∀ {a b : α}, a ≤ b → b ≤ b
  lt_of_le_of_lt : ∀ {a b c : α}, a ≤ b → b < c → a < c
  isFinite_of_le : ∀ {a b : α}, 0 ≤ a → a ≤ b → Scalar.isFinite b = true → Scalar.isFinite a = true

instance : SortedScalar ℝ where
  le_of_before _ _ h := by simpa [Scalar.before] using h
  le_self_of_isFinite _ := le_rfl
  le_self_of_lt _ := le_rfl
  le_self_of_le _ := le_rfl
  lt_of_le_of_lt hab hbc := hab.trans_lt hbc
  isFinite_of_le _ _ _ := rfl

instance : SortedScalar Double where
  le_of_before {a b} ha hb h := by
    have hrank : a.rank ≤ b.rank := by simpa [Scalar.before] using h
    rw [Double.le_iff_place] at ha hb ⊢
    exact ⟨ha.1, hb.1, Double.place_le_of_rank_le hrank⟩
  le_self_of_isFinite {a} h := by
    have h := Double.isFinite_iff.1 h
    exact Double.le_iff_place.2 ⟨h.le, h.le, le_rfl⟩
  le_self_of_lt {a b} h := by
    rw [Double.lt_iff_place] at h
    exact Double.le_iff_place.2 ⟨h.1, h.1, le_rfl⟩
  le_self_of_le {a b} h := by
    rw [Double.le_iff_place] at h
    exact Double.le_iff_place.2 ⟨h.2.1, h.2.1, le_rfl⟩
  lt_of_le_of_lt {a b c} hab hbc := by
    rw [Double.le_iff_place] at hab
    rw [Double.lt_iff_place] at hbc ⊢
    exact ⟨hab.1, hbc.2.1, hab.2.2.trans_lt hbc.2.2⟩
  isFinite_of_le {a b} ha hab hb := by
    have hb := Double.isFinite_iff.1 hb
    obtain ⟨-, -, ha⟩ := Double.le_iff_place.1 ha
    obtain ⟨-, -, hab⟩ := Double.le_iff_place.1 hab
    have hzero : (0 : Double).place = 0 := rfl
    rw [hzero] at ha
    refine Double.isFinite_iff.2 ?_
    omega

end Honeycomb
