import Honeycomb.Geometry.Axis
import Honeycomb.Proofs.Crystal.Tiling
import Honeycomb.Proofs.Number.Overflow

/-!
# Scaling matrices in words

The entries of a scaling matrix are words of 32 bits. What is computed from them is put into words
of 64 and of 128 bits, and none of it is too large for its word.

* `ScalingMatrix.determinant`, `ScalingMatrix.cornerSum`, `ScalingMatrix.boxLow`,
  `ScalingMatrix.boxHigh`, `ScalingMatrix.extent`, `ScalingMatrix.scanSize` — the formulas, each
  operation with the size of its word.
* `ScalingMatrix.acceptByWords`, `ScalingMatrix.scanByWords` — the decision on a matrix and the scan
  of its corner box, by what comes out of the words.
* `ScalingMatrix.isInRange_of_boxSize_le`, `ScalingMatrix.holds_of_mem_pointsInBox` — the corners of
  a box that is small enough to be scanned fit into 32 bits, and so do its points.
* `ScalingMatrix.HasExactWords` — no operation overflows, and nothing depends on the words.

Principal result: `ScalingMatrix.words_are_exact`.
-/

set_option autoImplicit false

namespace Honeycomb

/-! ## Entries -/

/-- A vector by its components along the axes. -/
def Vec3.ofAxes {α : Type} (f : Axis → α) : Vec3 α :=
  ⟨f .x, f .y, f .z⟩

namespace Mat3

variable {α : Type}

/-- The rows by their numbers, from zero to two. -/
def row (m : Mat3 α) : Nat → Vec3 α
  | 0 => m.row1
  | 1 => m.row2
  | _ => m.row3

/-- The entry in a row along an axis. -/
def entry (m : Mat3 α) (place : Nat × Axis) : α :=
  (m.row place.1).along place.2

/-- The whole numbers in a matrix of words. -/
def integers (m : Mat3 Int32) : Mat3 Int :=
  m.map Int32.toInt

theorem entry_map {β : Type} (f : α → β) (m : Mat3 α) (place : Nat × Axis) :
    (m.map f).entry place = f (m.entry place) := by
  obtain ⟨row, axis⟩ := place
  rcases row with _ | _ | row <;> cases axis <;> rfl

theorem natAbs_entry_integers_le (m : Mat3 Int32) (place : Nat × Axis) :
    (m.integers.entry place).natAbs ≤ 2 ^ 31 := by
  rw [integers, entry_map]
  have hlo := (m.entry place).le_toInt
  have hhi := (m.entry place).toInt_lt
  omega

end Mat3

namespace ScalingMatrix

/-! ## Formulas -/

/-- The minor of the last two rows in two columns. -/
def minor (a b : Axis) : Formula (Nat × Axis) :=
  .operation .difference .double
    (.operation .product .double (.entry (1, a)) (.entry (2, b)))
    (.operation .product .double (.entry (1, b)) (.entry (2, a)))

/-- The determinant, expanded along the first row. -/
def determinant : Formula (Nat × Axis) :=
  let term (a b c : Axis) : Formula (Nat × Axis) :=
    .operation .product .double (.entry (0, a)) (minor b c)
  .operation .sum .double
    (.operation .difference .double (term .x .y .z) (term .y .x .z)) (term .z .x .y)

/-- The sum of the rows whose bits are set in the number of a corner. -/
def cornerSum (corner : Nat) (axis : Axis) : Formula (Nat × Axis) :=
  let rows := [0, 1, 2].filter fun row => corner.testBit row
  .chain .sum .single (.constant 0) (rows.map fun row => .entry (row, axis))

/-- The least coordinate of the corners. -/
def boxLow (axis : Axis) : Formula (Nat × Axis) :=
  .chain .lesser .single (.constant 0) ((List.range 8).map (cornerSum · axis))

/-- The greatest coordinate of the corners. -/
def boxHigh (axis : Axis) : Formula (Nat × Axis) :=
  .chain .greater .single (.constant 0) ((List.range 8).map (cornerSum · axis))

/-- The number of coordinates from the least to the greatest. -/
def extent (axis : Axis) : Formula (Nat × Axis) :=
  .operation .sum .single
    (.operation .difference .single (boxHigh axis) (boxLow axis)) (.constant 1)

/-- The number of points that are scanned. -/
def scanSize : Formula (Nat × Axis) :=
  .chain .product .double (.constant 1) ([Axis.x, Axis.y, Axis.z].map extent)

/-! ## What the formulas stand for -/

section

variable (rows : Mat3 Int)

theorem exact_determinant : determinant.exact rows.entry = rows.intDet :=
  rfl

theorem exact_cornerSum (k : Nat) (axis : Axis) : (cornerSum k axis).exact rows.entry =
    (corner rows (k.testBit 0) (k.testBit 1) (k.testBit 2)).along axis := by
  rw [cornerSum, Formula.exact_chain, corner_eq]
  cases h0 : k.testBit 0 <;> cases h1 : k.testBit 1 <;> cases h2 : k.testBit 2 <;> cases axis <;>
    simp [h0, h1, h2, chosen, Formula.exact, Mat3.entry, Mat3.row, Vec3.along, WholeOperation.apply]

theorem corners_eq : corners rows =
    (List.range 8).map fun k => corner rows (k.testBit 0) (k.testBit 1) (k.testBit 2) :=
  rfl

theorem exact_cornerSums (axis : Axis) :
    ((List.range 8).map (cornerSum · axis)).map (Formula.exact rows.entry) =
      (corners rows).map (Vec3.along · axis) := by
  rw [corners_eq, List.map_map, List.map_map]
  exact List.map_congr_left fun k _ => exact_cornerSum rows k axis

theorem exact_boxLow (axis : Axis) :
    (boxLow axis).exact rows.entry = (cornerBox rows).1.along axis := by
  rw [boxLow, Formula.exact_chain, exact_cornerSums, List.foldl_map]
  cases axis <;> rfl

theorem exact_boxHigh (axis : Axis) :
    (boxHigh axis).exact rows.entry = (cornerBox rows).2.along axis := by
  rw [boxHigh, Formula.exact_chain, exact_cornerSums, List.foldl_map]
  cases axis <;> rfl

theorem exact_extent (axis : Axis) : (extent axis).exact rows.entry =
    (cornerBox rows).2.along axis - (cornerBox rows).1.along axis + 1 := by
  rw [← exact_boxLow, ← exact_boxHigh]
  rfl

theorem exact_scanSize :
    scanSize.exact rows.entry = boxSize (cornerBox rows).1 (cornerBox rows).2 := by
  rw [scanSize, Formula.exact_chain, boxSize]
  simp only [List.map_cons, List.map_nil, exact_extent, List.foldl_cons, List.foldl_nil]
  simp only [Formula.exact, WholeOperation.apply, one_mul, Vec3.along]

end

/-! ## What fits -/

section

variable (m : Mat3 Int32)

/-- A formula that cannot become too large for entries of 32 bits is computed exactly. Its greatest
magnitude does not depend on the entries, so that it is found by evaluation. -/
theorem exact_of_reach? {f : Formula (Nat × Axis)} (h : (f.reach? (2 ^ 31)).isSome) :
    f.NeverOverflows m.integers.entry ∧ f.computed m.integers.entry = f.exact m.integers.entry :=
  Formula.computed_eq_of_reach? m.natAbs_entry_integers_le h

theorem determinant_fits : determinant.NeverOverflows m.integers.entry ∧
    determinant.computed m.integers.entry = m.integers.intDet := by
  rw [← exact_determinant]
  exact exact_of_reach? m (by decide +kernel)

theorem cornerSum_fits {k : Nat} (hk : k < 8) (axis : Axis) :
    (cornerSum k axis).NeverOverflows m.integers.entry := by
  have hreach : ∀ k < 8, ∀ axis ∈ [Axis.x, .y, .z],
      ((cornerSum k axis).reach? (2 ^ 31)).isSome := by decide +kernel
  exact (exact_of_reach? m (hreach k hk axis (by cases axis <;> simp))).1

theorem box_fits (axis : Axis) :
    ((boxLow axis).NeverOverflows m.integers.entry ∧
      (boxLow axis).computed m.integers.entry = (cornerBox m.integers).1.along axis) ∧
    (boxHigh axis).NeverOverflows m.integers.entry ∧
      (boxHigh axis).computed m.integers.entry = (cornerBox m.integers).2.along axis := by
  rw [← exact_boxLow, ← exact_boxHigh]
  cases axis <;>
    exact ⟨exact_of_reach? m (by decide +kernel), exact_of_reach? m (by decide +kernel)⟩

theorem extent_fits (axis : Axis) : (extent axis).NeverOverflows m.integers.entry := by
  cases axis <;> exact (exact_of_reach? m (by decide +kernel)).1

theorem scanSize_fits : scanSize.NeverOverflows m.integers.entry ∧
    scanSize.computed m.integers.entry =
      boxSize (cornerBox m.integers).1 (cornerBox m.integers).2 := by
  rw [← exact_scanSize]
  exact exact_of_reach? m (by decide +kernel)

end

/-! ## Decisions by words -/

section

variable {α : Type}

/-- The rows of a matrix, when the determinant that comes out of words allows it. -/
def acceptByWords (rows : Mat3 Int) : Except (Error α) (Mat3 Int) :=
  let det := determinant.computed rows.entry
  if det ≤ 0 then .error (.parameter (.scalingDeterminant det (rows.rows.map Vec3.toList)))
  else if maxUnitCells < det then .error (.parameter (.scalingTooLarge det maxUnitCells))
  else .ok rows

/-- The number of unit cells that comes out of words. -/
def detByWords (rows : Mat3 Int) : Int :=
  WordSize.single.wrap (determinant.computed rows.entry)

/-- The box of the corners that comes out of words. -/
def boxByWords (rows : Mat3 Int) : Vec3 Int × Vec3 Int :=
  (.ofAxes fun axis => (boxLow axis).computed rows.entry,
    .ofAxes fun axis => (boxHigh axis).computed rows.entry)

/-- The places of the unit cells, when their box is measured in words. -/
def scanByWords [Scalar α] (rows : Mat3 Int) : Except (Error α) (List (Vec3 Int)) :=
  match (rows.map Scalar.ofInt : Mat3 α).inverse? with
  | none => .error (.parameter .scalingSingular)
  | some inverse =>
    let (lo, hi) := boxByWords rows
    let size := scanSize.computed rows.entry
    if maxScan < size then .error (.parameter (.scanTooLarge size maxScan))
    else
      match (lo.toList ++ hi.toList).find? (!isInRange ·) with
      | some v => .error (.parameter (.pointOutOfRange v))
      | none =>
        let points := pointsInBox lo hi (holds inverse.transpose)
        if (points.length : Int) = detByWords rows then .ok points
        else .error (.parameter (.pointCount points.length (detByWords rows).toNat))

/-- **A matrix is accepted or refused by its determinant itself.** -/
theorem acceptByWords_eq (m : Mat3 Int32) :
    (acceptByWords m.integers : Except (Error α) _) = (ofRows m.integers).map rows := by
  unfold acceptByWords ofRows
  rw [(determinant_fits m).2]
  dsimp only
  by_cases hpos : 0 < m.integers.intDet
  · rw [if_neg (not_le.2 hpos), dif_pos hpos]
    by_cases hle : m.integers.intDet ≤ maxUnitCells
    · rw [if_neg (not_lt.2 hle), dif_pos hle]
      rfl
    · rw [if_pos (not_le.1 hle), dif_neg hle]
      rfl
  · rw [if_pos (not_lt.1 hpos), dif_neg hpos]
    rfl

variable {m : Mat3 Int32} {s : ScalingMatrix}

/-- The number of unit cells fits into 64 bits. -/
theorem detByWords_eq (h : s.rows = m.integers) : detByWords m.integers = s.det := by
  have hpos := s.det_pos
  have hle := s.det_le
  have hfits : WordSize.single.Holds s.rows.intDet := by
    apply WordSize.holds_of_natAbs_lt
    unfold maxUnitCells at hle
    simp only [WordSize.bits]
    omega
  rw [detByWords, (determinant_fits m).2, ← h, hfits.wrap_eq]
  rfl

theorem boxByWords_eq (m : Mat3 Int32) : boxByWords m.integers = cornerBox m.integers := by
  unfold boxByWords
  simp only [box_fits]
  rfl

/-- **The scan goes over the box itself.** -/
theorem scanByWords_eq [Scalar α] (h : s.rows = m.integers) :
    (scanByWords m.integers : Except (Error α) _) = s.scanPlaces := by
  unfold scanByWords scanPlaces scalars
  rewrite [boxByWords_eq, (scanSize_fits m).2, detByWords_eq h, h]
  rfl

end

/-! ## Ranges -/

section

variable {rows : Mat3 Int}

/-- What is asked of a coordinate is that it fits into 32 bits. -/
theorem isInRange_iff_holds {v : Int} : isInRange v = true ↔ WordSize.half.Holds v := by
  simp [isInRange, WordSize.Holds, WordSize.bits]

/-- The origin is one of the corners. -/
theorem origin_in_cornerBox (rows : Mat3 Int) (axis : Axis) :
    (cornerBox rows).1.along axis ≤ 0 ∧ 0 ≤ (cornerBox rows).2.along axis := by
  have hmem := corner_mem_corners rows false false false
  cases axis <;> exact ⟨foldl_min_le _ hmem 0, le_foldl_max _ hmem 0⟩

/-- No edge of a box is longer than its number of points. -/
theorem edge_le_boxSize {lo hi : Vec3 Int} (h : ∀ axis, lo.along axis ≤ 0 ∧ 0 ≤ hi.along axis)
    (axis : Axis) : hi.along axis - lo.along axis < boxSize lo hi := by
  have hx := h .x
  have hy := h .y
  have hz := h .z
  unfold boxSize
  simp only [Vec3.along] at hx hy hz
  have ha : 1 ≤ hi.x - lo.x + 1 := by omega
  have hb : 1 ≤ hi.y - lo.y + 1 := by omega
  have hc : 1 ≤ hi.z - lo.z + 1 := by omega
  generalize hx' : hi.x - lo.x + 1 = a at ha ⊢
  generalize hy' : hi.y - lo.y + 1 = b at hb ⊢
  generalize hz' : hi.z - lo.z + 1 = c at hc ⊢
  -- no edge is empty, so that a product only grows with another edge
  have hab : 1 ≤ a * b := one_le_mul_of_one_le_of_one_le ha hb
  have hle : a ≤ a * b ∧ b ≤ a * b ∧ a * b ≤ a * b * c ∧ c ≤ a * b * c :=
    ⟨le_mul_of_one_le_right (by omega) hb, le_mul_of_one_le_left (by omega) ha,
      le_mul_of_one_le_right (by omega) hc, le_mul_of_one_le_left (by omega) hab⟩
  cases axis <;> simp only [Vec3.along] <;> omega

/-- **The corners of a box that is small enough to be scanned fit into 32 bits.** -/
theorem isInRange_of_boxSize_le
    (h : boxSize (cornerBox rows).1 (cornerBox rows).2 ≤ maxScan) :
    ∀ v ∈ (cornerBox rows).1.toList ++ (cornerBox rows).2.toList, isInRange v = true := by
  have hrange (axis : Axis) : isInRange ((cornerBox rows).1.along axis) = true ∧
      isInRange ((cornerBox rows).2.along axis) = true := by
    have horigin := origin_in_cornerBox rows axis
    have hedge := edge_le_boxSize (origin_in_cornerBox rows) axis
    unfold maxScan maxUnitCells at h
    simp only [isInRange, Bool.and_eq_true, decide_eq_true_eq]
    omega
  intro v hv
  simp only [Vec3.toList, List.cons_append, List.nil_append, List.mem_cons, List.not_mem_nil,
    or_false] at hv
  rcases hv with rfl | rfl | rfl | rfl | rfl | rfl
  · exact (hrange .x).1
  · exact (hrange .y).1
  · exact (hrange .z).1
  · exact (hrange .x).2
  · exact (hrange .y).2
  · exact (hrange .z).2

/-- So do all points of such a box. -/
theorem holds_of_mem_pointsInBox
    (h : boxSize (cornerBox rows).1 (cornerBox rows).2 ≤ maxScan) {keep : Vec3 Int → Bool}
    {p : Vec3 Int} (hp : p ∈ pointsInBox (cornerBox rows).1 (cornerBox rows).2 keep) (axis : Axis) :
    WordSize.half.Holds (p.along axis) := by
  have hcorners := isInRange_of_boxSize_le h
  obtain ⟨hbox, -⟩ := mem_pointsInBox.1 hp
  simp only [Vec3.toList, List.cons_append, List.nil_append, List.forall_mem_cons,
    isInRange_iff_holds, WordSize.Holds, WordSize.bits] at hcorners ⊢
  cases axis <;> simp only [Vec3.along] <;> omega

end

/-! ## All together -/

/-- Nothing that is computed from a matrix of words overflows, and nothing that is decided depends
on the sizes of the words. -/
structure HasExactWords (m : Mat3 Int32) : Prop where
  determinant_eq : determinant.NeverOverflows m.integers.entry ∧
    determinant.computed m.integers.entry = m.integers.intDet
  accept_eq : ∀ α : Type,
    (acceptByWords m.integers : Except (Error α) _) = (ofRows m.integers).map rows
  det_eq : ∀ s : ScalingMatrix, s.rows = m.integers → detByWords m.integers = s.det
  corner_eq : ∀ k < 8, ∀ axis, (cornerSum k axis).NeverOverflows m.integers.entry ∧
    (cornerSum k axis).computed m.integers.entry =
      (corner m.integers (k.testBit 0) (k.testBit 1) (k.testBit 2)).along axis
  box_eq : boxByWords m.integers = cornerBox m.integers ∧
    ∀ axis, (boxLow axis).NeverOverflows m.integers.entry ∧
      (boxHigh axis).NeverOverflows m.integers.entry ∧
        (extent axis).NeverOverflows m.integers.entry
  scanSize_eq : scanSize.NeverOverflows m.integers.entry ∧
    scanSize.computed m.integers.entry =
      boxSize (cornerBox m.integers).1 (cornerBox m.integers).2
  scan_eq : ∀ (α : Type) [Scalar α],
    (acceptByWords m.integers >>= scanByWords : Except (Error α) _) =
      ofRows m.integers >>= scanPlaces
  range_fits : boxSize (cornerBox m.integers).1 (cornerBox m.integers).2 ≤ maxScan →
    (∀ v ∈ (cornerBox m.integers).1.toList ++ (cornerBox m.integers).2.toList,
      isInRange v = true) ∧
    ∀ keep, ∀ p ∈ pointsInBox (cornerBox m.integers).1 (cornerBox m.integers).2 keep,
      ∀ axis, WordSize.half.Holds (p.along axis)

theorem rows_of_ofRows {α : Type} {rows : Mat3 Int} {s : ScalingMatrix}
    (h : (ofRows rows : Except (Error α) _) = .ok s) : s.rows = rows := by
  unfold ofRows at h
  dsimp only at h
  split at h
  · split at h
    · cases h
      rfl
    · cases h
  · cases h

/-- **Words of 64 and of 128 bits are large enough** for every matrix whose entries have 32. The
determinant, the sums of the corners, the box and its size come out as they are; the matrix is
accepted or refused, and its box is scanned or refused, as in whole numbers without a limit. All
points of a box that is scanned fit into 32 bits again. -/
theorem words_are_exact (m : Mat3 Int32) : HasExactWords m where
  determinant_eq := determinant_fits m
  accept_eq _ := acceptByWords_eq m
  det_eq _ h := detByWords_eq h
  corner_eq k hk axis := by
    have hfits := cornerSum_fits m hk axis
    exact ⟨hfits, (Formula.computed_eq hfits).trans (exact_cornerSum m.integers k axis)⟩
  box_eq := by
    refine ⟨boxByWords_eq m, fun axis => ?_⟩
    obtain ⟨⟨hlo, -⟩, hhi, -⟩ := box_fits m axis
    exact ⟨hlo, hhi, extent_fits m axis⟩
  scanSize_eq := scanSize_fits m
  scan_eq α _ := by
    rw [acceptByWords_eq]
    cases hs : (ofRows m.integers : Except (Error α) _) with
    | error e => rfl
    | ok s =>
      have hrows := rows_of_ofRows hs
      refine Eq.trans ?_ (scanByWords_eq hrows)
      rw [← hrows]
      rfl
  range_fits h := ⟨isInRange_of_boxSize_le h, fun _ _ hp axis => holds_of_mem_pointsInBox h hp axis⟩

end ScalingMatrix

end Honeycomb
