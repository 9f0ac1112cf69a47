import Mathlib
import Honeycomb.Structure.Graphene
import Honeycomb.Proofs.Chirality.Sheet
import Honeycomb.Proofs.Geometry.Rotation
import Honeycomb.Proofs.Outcome

/-!
# The sites of graphene

The rectangular cell of four atoms and the rhombic cell of two atoms are cells of one honeycomb.
Everything here is exact arithmetic.

* `Site` — an atom of the honeycomb, by its sublattice and the whole periods that lead to it.
  `Site.dist_place` — the distance of two sites in terms of the periods between them.
* `Site.ncard_neighbors`, `Site.bond_le_dist` — each site has three neighbors, and nothing is
  nearer.
* `Graphene.MovedAtom` — an atom of the sheet that a cell generates, and `MovedAtom.toSite`, the
  site that it stands at. `Graphene.bijective_toSite` — with either cell there is one atom at each
  site.
* `Graphene.crystal` — the elements and places of all atoms; `Graphene.crystal_eq` — the cell is
  nowhere in it. `Graphene.IsHoneycomb` — what makes a sheet a honeycomb.

Principal result: `Graphene.cells_describe_one_honeycomb` — both cells generate the same crystal,
and it is a honeycomb.
-/

set_option autoImplicit false

namespace Honeycomb

/-! ## Sites -/

/-- **An atom of the honeycomb**: its sublattice, and how many of the two periods of the rhombic
cell lead to it. -/
@[ext]
structure Site where
  sublattice : Sublattice
  along1 : Int
  along2 : Int

namespace Site

variable {bond : ℝ} {s t : Site}

/-- Where a site is in a sheet with bonds of a length. -/
noncomputable def place (bond : ℝ) (s : Site) : Vec3 ℝ :=
  let period := Scalar.sqrt3 * bond
  ⟨period * (s.along1 + s.sublattice.offset) + period / 2.0 * (s.along2 + s.sublattice.offset),
    period * Scalar.sqrt3 / 2.0 * (s.along2 + s.sublattice.offset), 0⟩

theorem place_eq (bond : ℝ) (s : Site) : s.place bond =
    ⟨√3 * bond * (s.along1 + s.sublattice.offset + (s.along2 + s.sublattice.offset) / 2),
      3 / 2 * bond * (s.along2 + s.sublattice.offset), 0⟩ := by
  have hthree : √3 * √3 = (3 : ℝ) := Real.mul_self_sqrt (by norm_num)
  rw [place, Scalar.sqrt3_real, show (2.0 : ℝ) = 2 by norm_num, Vec3.mk.injEq]
  refine ⟨by ring, ?_, rfl⟩
  linear_combination bond / 2 * (s.along2 + s.sublattice.offset) * hthree

/-- The square of the distance of two sites, with the period for unit. -/
noncomputable def farness (s t : Site) : ℝ :=
  hexForm ((t.along1 - s.along1 : Int) + (t.sublattice.offset - s.sublattice.offset))
    ((t.along2 - s.along2 : Int) + (t.sublattice.offset - s.sublattice.offset))

theorem dist_place (hbond : 0 < bond) (s t : Site) :
    (s.place bond).dist (t.place bond) = bond * √(3 * farness s t) := by
  have hthree : √3 * √3 = (3 : ℝ) := Real.mul_self_sqrt (by norm_num)
  have hsq : (s.place bond).dist (t.place bond) = √(bond ^ 2 * (3 * farness s t)) := by
    rw [place_eq, place_eq]
    change √(_ * _ + _ * _ + _ * _) = _
    congr 1
    change (_ - _) * (_ - _) + (_ - _) * (_ - _) + (0 - 0) * (0 - 0) = _
    unfold farness hexForm
    push_cast
    linear_combination (bond * (s.along1 - t.along1 + s.sublattice.offset - t.sublattice.offset +
      (s.along2 - t.along2 + s.sublattice.offset - t.sublattice.offset) / 2)) ^ 2 * hthree
  rw [hsq, Real.sqrt_mul (sq_nonneg bond), Real.sqrt_sq hbond.le]

/-- Only the three neighbors of a site are one bond away. -/
theorem three_farness_eq_one_iff : 3 * farness s t = 1 ↔
    t.sublattice = s.sublattice.other ∧
      (t.along1 - s.along1, t.along2 - s.along2) ∈ s.sublattice.steps :=
  three_hexForm_eq_one_iff _ _ _ _

/-- The forms that measure distances have no value between zero and one at whole numbers. -/
theorem one_le_hexForm {x y : Int} (h : x ≠ 0 ∨ y ≠ 0) : 1 ≤ x * x + y * y + x * y := by
  have hsquares : 2 * (x * x + y * y + x * y) = x * x + y * y + (x + y) * (x + y) := by ring
  have hpos : 0 < x * x + y * y := by
    rcases h with h | h
    · exact add_pos_of_pos_of_nonneg (mul_self_pos.2 h) (mul_self_nonneg y)
    · exact add_pos_of_nonneg_of_pos (mul_self_nonneg x) (mul_self_pos.2 h)
  have hsum := mul_self_nonneg (x + y)
  omega

theorem shifted_hexForm_nonneg (x y : Int) : 0 ≤ x * x + y * y + x * y + x + y := by
  have hsquares : 2 * (x * x + y * y + x * y + x + y) + 1 =
      x * x + y * y + (x + y + 1) * (x + y + 1) := by ring
  have hx := mul_self_nonneg x
  have hy := mul_self_nonneg y
  have hsum := mul_self_nonneg (x + y + 1)
  omega

/-- **Nothing is nearer than a neighbor.** -/
theorem one_le_three_farness (h : s ≠ t) : 1 ≤ 3 * farness s t := by
  obtain ⟨s, a, b⟩ := s
  obtain ⟨t, a', b'⟩ := t
  have hsame (hst : s = t) :
      1 ≤ (a' - a) * (a' - a) + (b' - b) * (b' - b) + (a' - a) * (b' - b) := by
    apply one_le_hexForm
    by_contra hzero
    refine h (Site.ext hst ?_ ?_) <;> dsimp only <;> omega
  have hup := shifted_hexForm_nonneg (a' - a) (b' - b)
  have hdown := shifted_hexForm_nonneg (-(a' - a)) (-(b' - b))
  unfold farness hexForm
  dsimp only
  generalize a' - a = x, b' - b = y at *
  cases s <;> cases t
  · have hxy : (1 : ℝ) ≤ x * x + y * y + x * y := by exact_mod_cast hsame rfl
    simp only [Sublattice.offset]
    linarith
  · have hxy : (0 : ℝ) ≤ x * x + y * y + x * y + x + y := by exact_mod_cast hup
    simp only [Sublattice.offset]
    linarith
  · have hxy : (0 : ℝ) ≤ -x * -x + -y * -y + -x * -y + -x + -y := by exact_mod_cast hdown
    simp only [Sublattice.offset]
    linarith
  · have hxy : (1 : ℝ) ≤ x * x + y * y + x * y := by exact_mod_cast hsame rfl
    simp only [Sublattice.offset]
    linarith

theorem bond_le_dist (hbond : 0 < bond) (h : s ≠ t) :
    bond ≤ (s.place bond).dist (t.place bond) := by
  rw [dist_place hbond]
  have hone : 1 ≤ √(3 * farness s t) := Real.one_le_sqrt.2 (one_le_three_farness h)
  exact le_mul_of_one_le_right hbond.le hone

theorem dist_eq_bond_iff (hbond : 0 < bond) :
    (s.place bond).dist (t.place bond) = bond ↔
      t.sublattice = s.sublattice.other ∧
        (t.along1 - s.along1, t.along2 - s.along2) ∈ s.sublattice.steps := by
  rw [dist_place hbond, mul_eq_left₀ hbond.ne', Real.sqrt_eq_one, three_farness_eq_one_iff]

theorem place_injective (hbond : 0 < bond) : Function.Injective (place bond) := by
  intro s t h
  by_contra hne
  have hzero : (s.place bond).dist (t.place bond) = 0 := by
    rw [h, Vec3.dist, sub_self]
    exact Vec3.norm_eq_zero_iff.2 rfl
  exact hbond.not_ge (hzero ▸ bond_le_dist hbond hne)

/-- **Each site has three neighbors.** -/
theorem ncard_neighbors (hbond : 0 < bond) (s : Site) :
    {t : Site | (s.place bond).dist (t.place bond) = bond}.ncard = 3 := by
  have himage : {t : Site | (s.place bond).dist (t.place bond) = bond} =
      (fun d : Int × Int => Site.mk s.sublattice.other (s.along1 + d.1) (s.along2 + d.2)) ''
        ↑s.sublattice.steps := by
    ext t
    rw [Set.mem_ofPred_eq, dist_eq_bond_iff hbond, Set.mem_image]
    constructor
    · rintro ⟨hother, hstep⟩
      refine ⟨_, hstep, Site.ext hother.symm ?_ ?_⟩
      · exact add_sub_cancel _ _
      · exact add_sub_cancel _ _
    · rintro ⟨d, hstep, rfl⟩
      refine ⟨rfl, ?_⟩
      rw [add_sub_cancel_left, add_sub_cancel_left]
      exact hstep
  rw [himage, Set.ncard_image_of_injective, Set.ncard_coe_finset, Sublattice.card_steps]
  intro d d' h
  rw [Site.mk.injEq] at h
  exact Prod.ext (add_left_cancel h.2.1) (add_left_cancel h.2.2)

end Site

/-! ## The sheet of a cell -/

/-- The crystal that a unit cell generates in the plane of its first two vectors: its atoms, by
element and place, moved by whole periods. -/
def UnitCell.sheet (c : UnitCell ℝ) : Set (String × Vec3 ℝ) :=
  {p | ∃ a ∈ c.basis, ∃ u v : Int, p = (a.element,
    a.position + c.lattice.matrix.row1 * (u : ℝ) + c.lattice.matrix.row2 * (v : ℝ))}

namespace Graphene

/-- **An atom of the sheet that a cell generates**: one of the sites of the cell, moved by whole
periods. -/
@[ext]
structure MovedAtom (g : Graphene ℝ) where
  number : Fin g.sites.length
  along1 : Int
  along2 : Int

variable {g : Graphene ℝ}

namespace MovedAtom

/-- The element of an atom. -/
noncomputable def element (A : MovedAtom g) : String :=
  (g.sites.get A.number).1

/-- Where an atom is. -/
noncomputable def place (A : MovedAtom g) : Vec3 ℝ :=
  (g.sites.get A.number).2 + g.r1 * (A.along1 : ℝ) + g.r2 * (A.along2 : ℝ)

/-- The sublattice of an atom: those of a cell alternate. -/
def sublattice (A : MovedAtom g) : Sublattice :=
  if A.number.val % 2 = 0 then .first else .second

/-- **The site that an atom stands at.** The second period of the rectangular cell is twice that of
the rhombic one less the first, so that the two atoms of its upper half stand in the odd rows. -/
def toSite (A : MovedAtom g) : Site :=
  match g.cell with
  | .primitive _ => ⟨A.sublattice, A.along1, A.along2⟩
  | .conventional _ _ =>
    ⟨A.sublattice, A.along1 - A.along2 - (A.number.val / 3 : Nat),
      2 * A.along2 + (A.number.val / 2 : Nat)⟩

theorem sublattice_toSite (A : MovedAtom g) : A.toSite.sublattice = A.sublattice := by
  unfold toSite
  split <;> rfl

/-- The parity of the number of an atom gives the sublattice. -/
theorem sublattice_eq {A : MovedAtom g} {s : Sublattice} (h : A.number.val % 2 = s.index) :
    A.sublattice = s := by
  unfold sublattice
  cases s <;> simp [h, Sublattice.index]

theorem sublattice_eq_iff {A B : MovedAtom g} :
    A.sublattice = B.sublattice ↔ A.number.val % 2 = B.number.val % 2 := by
  unfold sublattice
  grind

end MovedAtom

/-! ## The two cells -/

section Cells

variable {bond armchair zigzag edge : ℝ} {basis : Basis} {layers : Layers ℝ}

theorem sites_conventional : sites ⟨.conventional armchair zigzag, bond, basis, layers⟩ =
    [(basis.first, ⟨0, 0, 0⟩), (basis.second, ⟨√3 * bond / 2, bond / 2, 0⟩),
      (basis.first, ⟨√3 * bond / 2, 3 * bond / 2, 0⟩), (basis.second, ⟨0, 2 * bond, 0⟩)] := by
  norm_num [sites, period]
  rfl

theorem r1_eq (g : Graphene ℝ) : g.r1 = ⟨√3 * g.bond, 0, 0⟩ := by
  rw [r1, period, Scalar.sqrt3_real]

theorem r2_conventional :
    r2 ⟨.conventional armchair zigzag, bond, basis, layers⟩ = ⟨0, 3 * bond, 0⟩ := by
  norm_num [r2]

theorem r2_primitive :
    r2 ⟨.primitive edge, bond, basis, layers⟩ = ⟨√3 * bond / 2, 3 * bond / 2, 0⟩ := by
  have hthree : √3 * √3 = (3 : ℝ) := Real.mul_self_sqrt (by norm_num)
  have hheight : √3 * bond * √3 / 2 = 3 * bond / 2 := by linear_combination bond / 2 * hthree
  norm_num [r2, period, hheight]

theorem sites_primitive : sites ⟨.primitive edge, bond, basis, layers⟩ =
    [(basis.first, ⟨0, 0, 0⟩), (basis.second, ⟨√3 * bond / 2, bond / 2, 0⟩)] := by
  have hthird : (r1 ⟨.primitive edge, bond, basis, layers⟩ +
      r2 ⟨.primitive edge, bond, basis, layers⟩) / (3.0 : ℝ) = ⟨√3 * bond / 2, bond / 2, 0⟩ := by
    rw [r1_eq, r2_primitive, show (3.0 : ℝ) = 3 by norm_num]
    change Vec3.mk ((_ + _) / _) ((_ + _) / _) ((_ + _) / _) = _
    rw [Vec3.mk.injEq]
    refine ⟨?_, ?_, ?_⟩ <;> ring
  rw [sites]
  dsimp only
  rw [hthird]
  rfl

/-- **An atom is at its site.** -/
theorem MovedAtom.place_toSite (A : MovedAtom g) : A.toSite.place g.bond = A.place := by
  obtain ⟨cell, bond, basis, layers⟩ := g
  obtain ⟨⟨number, hnumber⟩, u, v⟩ := A
  unfold place toSite sublattice
  cases cell with
  | conventional armchair zigzag =>
    simp only [sites_conventional, r1_eq, r2_conventional, Vec3.mul_mk, List.get_eq_getElem,
      Site.place_eq]
    change number < 4 at hnumber
    interval_cases number
    all_goals
      simp only [Nat.reduceMod, Nat.reduceDiv, reduceIte, one_ne_zero,
        List.getElem_cons_zero, List.getElem_cons_succ, Sublattice.offset, Vec3.add_mk,
        Vec3.mk.injEq]
      push_cast
      refine ⟨?_, ?_, ?_⟩ <;> ring
  | primitive edge =>
    simp only [sites_primitive, r1_eq, r2_primitive, Vec3.mul_mk, List.get_eq_getElem,
      Site.place_eq]
    change number < 2 at hnumber
    interval_cases number
    all_goals
      simp only [Nat.reduceMod, reduceIte, one_ne_zero, List.getElem_cons_zero,
        List.getElem_cons_succ, Sublattice.offset, Vec3.add_mk, Vec3.mk.injEq]
      refine ⟨?_, ?_, ?_⟩ <;> ring

/-- The elements of an atom and of its sublattice agree. -/
theorem MovedAtom.element_eq (A : MovedAtom g) : A.element = A.sublattice.element g.basis := by
  obtain ⟨cell, bond, basis, layers⟩ := g
  obtain ⟨⟨number, hnumber⟩, u, v⟩ := A
  unfold element sublattice
  cases cell with
  | conventional armchair zigzag =>
    simp only [sites_conventional, List.get_eq_getElem]
    change number < 4 at hnumber
    interval_cases number <;> simp [Sublattice.element]
  | primitive edge =>
    simp only [sites_primitive, List.get_eq_getElem]
    change number < 2 at hnumber
    interval_cases number <;> simp [Sublattice.element]

/-- **With the rectangular cell there is one atom at each site.** -/
theorem bijective_toSite_conventional : Function.Bijective
    (MovedAtom.toSite (g := ⟨.conventional armchair zigzag, bond, basis, layers⟩)) := by
  constructor
  · intro A B h
    have hA : A.number.val < 4 := A.number.isLt
    have hB : B.number.val < 4 := B.number.isLt
    simp only [MovedAtom.toSite, Site.mk.injEq, MovedAtom.sublattice_eq_iff] at h
    exact MovedAtom.ext (Fin.ext (by omega)) (by omega) (by omega)
  · rintro ⟨s, u, v⟩
    have hs : s.index < 2 := by cases s <;> decide
    -- the upper half of the cell for the odd rows
    obtain ⟨n, hn⟩ : ∃ n, n = 2 * (v % 2).toNat + s.index := ⟨_, rfl⟩
    refine ⟨⟨⟨n, (by omega : n < 4)⟩, u + v / 2 + (n / 3 : Nat), v / 2⟩, Site.ext ?_ ?_ ?_⟩
    · rw [MovedAtom.sublattice_toSite]
      exact MovedAtom.sublattice_eq (by omega : n % 2 = s.index)
    · change u + v / 2 + (n / 3 : Nat) - v / 2 - (n / 3 : Nat) = u
      omega
    · change 2 * (v / 2) + (n / 2 : Nat) = v
      omega

/-- **With the rhombic cell there is one atom at each site.** -/
theorem bijective_toSite_primitive : Function.Bijective
    (MovedAtom.toSite (g := ⟨.primitive edge, bond, basis, layers⟩)) := by
  constructor
  · intro A B h
    have hA : A.number.val < 2 := A.number.isLt
    have hB : B.number.val < 2 := B.number.isLt
    simp only [MovedAtom.toSite, Site.mk.injEq, MovedAtom.sublattice_eq_iff] at h
    exact MovedAtom.ext (Fin.ext (by omega)) (by omega) (by omega)
  · rintro ⟨s, u, v⟩
    have hs : s.index < 2 := by cases s <;> decide
    refine ⟨⟨⟨s.index, hs⟩, u, v⟩, Site.ext ?_ rfl rfl⟩
    exact MovedAtom.sublattice_eq (Nat.mod_eq_of_lt hs)

end Cells

/-- **At each site there is one atom**, with either cell. -/
theorem bijective_toSite (g : Graphene ℝ) : Function.Bijective (MovedAtom.toSite (g := g)) := by
  obtain ⟨cell, bond, basis, layers⟩ := g
  cases cell with
  | conventional armchair zigzag => exact bijective_toSite_conventional
  | primitive edge => exact bijective_toSite_primitive

/-! ## The honeycomb -/

/-- The crystal of a sheet: the elements and places of its atoms. -/
def crystal (g : Graphene ℝ) : Set (String × Vec3 ℝ) :=
  Set.range fun A : MovedAtom g => (A.element, A.place)

/-- The places of the atoms of a sublattice. -/
def sublatticePlaces (g : Graphene ℝ) (s : Sublattice) : Set (Vec3 ℝ) :=
  MovedAtom.place '' {A : MovedAtom g | A.sublattice = s}

/-- The unit cell generates the crystal. -/
theorem sheet_of_unitCell {c : UnitCell ℝ} (h : g.unitCell = .ok c) : c.sheet = g.crystal := by
  obtain ⟨lattice, hlattice, rfl⟩ := map_eq_ok_iff.1 h
  have hmatrix := Lattice.ofMatrix_eq_ok_iff.1 hlattice
  ext p
  simp only [UnitCell.sheet, crystal, Set.mem_ofPred_eq, Set.mem_range, hmatrix, List.mem_map]
  constructor
  · rintro ⟨_, ⟨site, hsite, rfl⟩, u, v, rfl⟩
    obtain ⟨n, rfl⟩ := List.get_of_mem hsite
    exact ⟨⟨n, u, v⟩, rfl⟩
  · rintro ⟨A, rfl⟩
    exact ⟨_, ⟨_, List.get_mem _ A.number, rfl⟩, A.along1, A.along2, rfl⟩

/-- The crystal does not depend on the cell. -/
theorem crystal_eq (g : Graphene ℝ) : g.crystal =
    Set.range fun t : Site => (t.sublattice.element g.basis, t.place g.bond) := by
  rw [← g.bijective_toSite.surjective.range_comp]
  unfold crystal
  congr 1
  funext A
  rw [Function.comp_apply, A.place_toSite, A.sublattice_toSite, A.element_eq]

theorem sublatticePlaces_eq (g : Graphene ℝ) (s : Sublattice) :
    g.sublatticePlaces s = Site.place g.bond '' {t | t.sublattice = s} := by
  rw [← Set.image_preimage_eq {t : Site | t.sublattice = s} g.bijective_toSite.surjective,
    Set.image_image]
  simp only [MovedAtom.place_toSite, Set.preimage_ofPred_eq, MovedAtom.sublattice_toSite]
  rfl

/-- **The sheet is a honeycomb**: no atom is generated twice, each has three neighbors, all of the
other sublattice, and none is nearer than they are. -/
structure IsHoneycomb (g : Graphene ℝ) : Prop where
  cell : ∀ c, g.unitCell = .ok c → c.sheet = g.crystal
  once : ∀ p ∈ g.crystal, ∃! A : MovedAtom g, (A.element, A.place) = p
  element : ∀ A : MovedAtom g, A.element = A.sublattice.element g.basis
  three : ∀ A : MovedAtom g, {B : MovedAtom g | A.place.dist B.place = g.bond}.ncard = 3
  other : ∀ A B : MovedAtom g, A.place.dist B.place = g.bond → B.sublattice = A.sublattice.other
  nearest : ∀ A B : MovedAtom g, A ≠ B → g.bond ≤ A.place.dist B.place

theorem isHoneycomb (hbond : 0 < g.bond) : g.IsHoneycomb where
  cell _ := sheet_of_unitCell
  once := by
    rintro _ ⟨A, rfl⟩
    refine ⟨A, rfl, fun B hB => g.bijective_toSite.injective (Site.place_injective hbond ?_)⟩
    rw [B.place_toSite, A.place_toSite]
    exact (Prod.mk.inj hB).2
  element := MovedAtom.element_eq
  three A := by
    have hneighbors : {B : MovedAtom g | A.place.dist B.place = g.bond} =
        Set.preimage MovedAtom.toSite
          {t | (A.toSite.place g.bond).dist (t.place g.bond) = g.bond} := by
      simp only [Set.preimage_ofPred_eq, MovedAtom.place_toSite]
    rw [hneighbors, Set.ncard_preimage_of_injective_subset_range g.bijective_toSite.injective
      (Set.subset_range_of_surjective g.bijective_toSite.surjective _), Site.ncard_neighbors hbond]
  other A B h := by
    rw [← A.place_toSite, ← B.place_toSite, Site.dist_eq_bond_iff hbond] at h
    rw [← A.sublattice_toSite, ← B.sublattice_toSite]
    exact h.1
  nearest A B h := by
    rw [← A.place_toSite, ← B.place_toSite]
    exact Site.bond_le_dist hbond (g.bijective_toSite.injective.ne h)

/-- **The rectangular and the rhombic cell describe one honeycomb**: for every bond length and all
elements, both generate the same atoms. -/
theorem cells_describe_one_honeycomb {bond : ℝ} (hbond : 0 < bond) (basis : Basis)
    (layers : Layers ℝ) (armchair zigzag edge : ℝ) :
    crystal ⟨.conventional armchair zigzag, bond, basis, layers⟩ =
        crystal ⟨.primitive edge, bond, basis, layers⟩ ∧
      (∀ s, sublatticePlaces ⟨.conventional armchair zigzag, bond, basis, layers⟩ s =
        sublatticePlaces ⟨.primitive edge, bond, basis, layers⟩ s) ∧
      IsHoneycomb ⟨.conventional armchair zigzag, bond, basis, layers⟩ ∧
      IsHoneycomb ⟨.primitive edge, bond, basis, layers⟩ := by
  refine ⟨?_, fun s => ?_, isHoneycomb hbond, isHoneycomb hbond⟩
  · rw [crystal_eq, crystal_eq]
  · rw [sublatticePlaces_eq, sublatticePlaces_eq]

/-- A sheet of boron nitride. -/
theorem cells_describe_one_honeycomb_boronNitride :
    (0 : ℝ) < 1.45 ∧
      crystal ⟨.conventional 2 3, 1.45, ⟨"B", "N"⟩, .single⟩ =
        crystal ⟨.primitive 5, 1.45, ⟨"B", "N"⟩, .single⟩ ∧
      (∀ s, sublatticePlaces ⟨.conventional 2 3, 1.45, ⟨"B", "N"⟩, .single⟩ s =
        sublatticePlaces ⟨.primitive 5, 1.45, ⟨"B", "N"⟩, .single⟩ s) ∧
      IsHoneycomb ⟨.conventional 2 3, 1.45, ⟨"B", "N"⟩, .single⟩ ∧
      IsHoneycomb ⟨.primitive 5, 1.45, ⟨"B", "N"⟩, .single⟩ :=
  have hbond : (0 : ℝ) < 1.45 := by norm_num
  ⟨hbond, cells_describe_one_honeycomb hbond ⟨"B", "N"⟩ .single 2 3 5⟩

end Graphene

end Honeycomb
