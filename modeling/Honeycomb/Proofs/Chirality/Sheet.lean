import Mathlib
import Honeycomb.Proofs.Chirality.Periods

/-!
# The sheet of a flat tube

The unit cell of a flat tube, repeated on its two periods, is a sheet of graphene.

* `Sublattice` — the first and the second atoms of the hexagons; `siteVector` — their places as
  combinations of the periods of graphene.
* `Chirality.flatPoint` — where an atom of the flat cell is. What is just below a period is put to
  zero by `snap`, and only by it (`fold_eq_snap`).
* `Chirality.isCongruent_iff` — an atom of the cell stands for a site if the screw reaches it.
* `SheetAtom` — the atoms of the sheet; `existsUnique_atom` — there is one at each site.
* `steps` — the ways to the three neighbors of an atom; `three_hexForm_eq_one_iff` — no other atom
  is one bond away.

Principal result: `flat_cell_is_graphene` — lengths, angles, places and neighbors of the flat cell
are those of graphene.
-/

set_option autoImplicit false

namespace Honeycomb

/-! ## Sublattices -/

/-- Which of the two atoms of a hexagon. -/
inductive Sublattice where
  | first
  | second
deriving DecidableEq

namespace Sublattice

/-- The sublattice of all neighbors. -/
def other : Sublattice → Sublattice
  | first => second
  | second => first

/-- The place of an atom among the two of its hexagon. -/
def index : Sublattice → Nat
  | first => 0
  | second => 1

/-- The element of the atoms. -/
def element (basis : Basis) : Sublattice → String
  | first => basis.first
  | second => basis.second

/-- The part of `a1 + a2` that leads from the first atom of a hexagon to this one. -/
noncomputable def offset : Sublattice → ℝ
  | first => 0
  | second => 1 / 3

/-- The ways to the neighbors, in whole periods of graphene. -/
def steps : Sublattice → Finset (Int × Int)
  | first => {(0, 0), (-1, 0), (0, -1)}
  | second => {(0, 0), (1, 0), (0, 1)}

theorem card_steps (s : Sublattice) : s.steps.card = 3 := by
  cases s <;> decide

end Sublattice

/-- The place of an atom of a sublattice. -/
noncomputable def siteVector {V : Type*} [AddCommGroup V] [Module ℝ V] (a1 a2 : V) (s : Sublattice)
    (a b : Int) : V :=
  (a : ℝ) • a1 + (b : ℝ) • a2 + s.offset • (a1 + a2)

/-! ## Distances of sites -/

theorem hexForm_eq_zero {x y : ℝ} (h : hexForm x y = 0) : x = 0 ∧ y = 0 := by
  unfold hexForm at h
  constructor
  · nlinarith [sq_nonneg (x + y), sq_nonneg x, sq_nonneg y]
  · nlinarith [sq_nonneg (x + y), sq_nonneg x, sq_nonneg y]

/-- A sum of three squares that is one has a single term. -/
theorem form_eq_zero_iff (x y : Int) :
    x * x + y * y + x * y + x + y = 0 ↔ (x, y) ∈ Sublattice.first.steps := by
  simp only [Sublattice.steps, Finset.mem_insert, Finset.mem_singleton, Prod.mk.injEq]
  constructor
  · intro h
    have hsum : x * x + y * y + (x + y + 1) * (x + y + 1) = 1 := by linear_combination 2 * h
    have hx : -1 ≤ x ∧ x ≤ 1 := by constructor <;> nlinarith [mul_self_nonneg (x + y + 1)]
    have hy : -1 ≤ y ∧ y ≤ 1 := by constructor <;> nlinarith [mul_self_nonneg (x + y + 1)]
    obtain ⟨hx, hx'⟩ := hx
    obtain ⟨hy, hy'⟩ := hy
    interval_cases x <;> interval_cases y <;> omega
  · rintro (⟨rfl, rfl⟩ | ⟨rfl, rfl⟩ | ⟨rfl, rfl⟩) <;> rfl

/-- **Only the three neighbors of an atom are one bond away**, and they are of the other
sublattice. -/
theorem three_hexForm_eq_one_iff (s s' : Sublattice) (x y : Int) :
    3 * hexForm (x + (s'.offset - s.offset)) (y + (s'.offset - s.offset)) = 1 ↔
      s' = s.other ∧ (x, y) ∈ s.steps := by
  -- within a sublattice the left side is three times a whole number
  have hsame : ¬3 * hexForm x y = 1 := by
    intro h
    have h' : 3 * (x * x + y * y + x * y) = 1 := by
      unfold hexForm at h
      exact_mod_cast h
    omega
  have hup : 3 * hexForm (x + 1 / 3) (y + 1 / 3) = 1 ↔ x * x + y * y + x * y + x + y = 0 := by
    rw [← @Int.cast_inj ℝ]
    unfold hexForm
    push_cast
    constructor <;> intro h <;> linarith
  have hdown : 3 * hexForm (x + -(1 / 3)) (y + -(1 / 3)) = 1 ↔
      -x * -x + -y * -y + -x * -y + -x + -y = 0 := by
    rw [← @Int.cast_inj ℝ]
    unfold hexForm
    push_cast
    constructor <;> intro h <;> linarith
  cases s <;> cases s'
  · simpa [Sublattice.offset, Sublattice.other] using hsame
  · simp only [Sublattice.offset, Sublattice.other, sub_zero, true_and]
    rw [hup, form_eq_zero_iff]
  · simp only [Sublattice.offset, Sublattice.other, zero_sub, true_and]
    rw [hdown, form_eq_zero_iff]
    simp only [Sublattice.steps, Finset.mem_insert, Finset.mem_singleton, Prod.mk.injEq]
    omega
  · simpa [Sublattice.offset, Sublattice.other] using hsame

/-! ## The atoms of the flat cell -/

/-- A number of a period, put to zero where it is just below the period. -/
def snap {α : Type} [Scalar α] (period w : α) : α :=
  if period - w < 1e-9 then 0 else w

/-- A number is folded by taking its remainder, up to what is snapped. -/
theorem fold_eq_snap {α : Type} [Scalar α] (value period : α) :
    fold value period = snap period (Scalar.modulo value period) :=
  rfl

namespace Chirality

variable (c : Chirality)

/-- **Where an atom of the flat cell is**, after some turns of the screw: around and along the
tube, before anything is snapped. -/
noncomputable def flatPoint (bond : ℝ) : Sublattice → Nat → ℝ × ℝ
  | .first, i =>
    (Scalar.modulo (c.radius bond * (i * c.psi)) (c.circumference bond),
      Scalar.modulo (i * c.tau bond) (c.axialPeriod bond))
  | .second, i =>
    (Scalar.modulo (c.radius bond * (i * c.psi + c.dpsi bond)) (c.circumference bond),
      Scalar.modulo (i * c.tau bond - c.dtau bond) (c.axialPeriod bond))

/-- The atoms of the flat cell are at these points. -/
theorem getElem?_flatAtoms (bond : ℝ) (basis : Basis) (s : Sublattice) {i : Nat}
    (hi : i < c.hexagons) :
    (flatAtoms c bond basis)[2 * i + s.index]? = some (Atom.placed (s.element basis)
      ⟨snap (c.circumference bond) (c.flatPoint bond s i).1, 0,
        snap (c.axialPeriod bond) (c.flatPoint bond s i).2⟩) := by
  obtain ⟨hfirst, hsecond⟩ := getElem?_screwSites c bond basis
    (flatPlace (c.radius bond) (c.circumference bond)) hi
  unfold flatAtoms
  cases s with
  | first =>
    rw [Sublattice.index, Nat.add_zero, List.getElem?_map, hfirst]
    rfl
  | second =>
    rw [Sublattice.index, List.getElem?_map, hsecond]
    rfl

/-! ## Sites and periods -/

variable {c} {bond : ℝ}

/-- Different sites have different coordinates. -/
theorem coordinates_injective (hbond : 0 < bond) {x y x' y' : ℝ}
    (h : c.coordinates bond x y = c.coordinates bond x' y') : x = x' ∧ y = y' := by
  have hdiff : c.coordinates bond (x - x') (y - y') = 0 := by
    rw [sub_eq_add_neg, sub_eq_add_neg, coordinates_add, neg_eq_neg_one_mul x',
      neg_eq_neg_one_mul y', coordinates_smul, h, neg_one_smul, add_neg_cancel]
  have hform : 3 * bond ^ 2 * hexForm (x - x') (y - y') = 0 := by
    rw [← c.coordinates_sq, hdiff]
    simp
  have hzero := hexForm_eq_zero ((mul_eq_zero.1 hform).resolve_left (by positivity))
  exact ⟨sub_eq_zero.1 hzero.1, sub_eq_zero.1 hzero.2⟩

theorem eq_of_coordinates_eq (hbond : 0 < bond) {s : Sublattice} {a b a' b' : Int}
    (h : c.coordinates bond (a + s.offset) (b + s.offset) =
      c.coordinates bond (a' + s.offset) (b' + s.offset)) : a = a' ∧ b = b' := by
  obtain ⟨hx, hy⟩ := coordinates_injective hbond h
  exact ⟨by exact_mod_cast add_right_cancel hx, by exact_mod_cast add_right_cancel hy⟩

variable (c bond)

/-- The way of some periods around and some along the tube. -/
noncomputable def periods (u v : ℝ) : ℝ × ℝ :=
  (u * c.circumference bond, v * c.axialPeriod bond)

/-- Two places differ by whole periods of the tube. -/
def IsCongruent (p q : ℝ × ℝ) : Prop :=
  ∃ u v : Int, q = p + c.periods bond u v

variable {c bond}

theorem periods_add (u v u' v' : ℝ) :
    c.periods bond (u + u') (v + v') = c.periods bond u v + c.periods bond u' v' := by
  unfold periods
  rw [Prod.mk_add_mk, add_mul, add_mul]

theorem periods_injective (hbond : 0 < bond) {u v u' v' : ℝ}
    (h : c.periods bond u v = c.periods bond u' v') : u = u' ∧ v = v' := by
  unfold periods at h
  rw [Prod.mk.injEq] at h
  exact ⟨mul_right_cancel₀ (c.circumference_pos hbond).ne' h.1,
    mul_right_cancel₀ (c.axialPeriod_pos hbond).ne' h.2⟩

/-- A site moved by periods. -/
theorem coordinates_moved (x y u v : ℝ) :
    c.coordinates bond (x + u * c.n + v * c.t1) (y + u * c.m + v * c.t2) =
      c.coordinates bond x y + c.periods bond u v := by
  rw [coordinates_add, coordinates_add, coordinates_smul, coordinates_smul, coordinates_chiral,
    coordinates_axial, add_assoc]
  simp [periods]

/-- Remainders by the periods differ from the numbers by whole periods. -/
theorem exists_modulo_eq (hbond : 0 < bond) (x z : ℝ) : ∃ k l : Int,
    (Scalar.modulo x (c.circumference bond), Scalar.modulo z (c.axialPeriod bond)) =
      (x, z) + c.periods bond k l := by
  refine ⟨-⌊x / c.circumference bond⌋, -⌊z / c.axialPeriod bond⌋, ?_⟩
  rw [Scalar.modulo_of_pos _ (c.circumference_pos hbond),
    Scalar.modulo_of_pos _ (c.axialPeriod_pos hbond), periods, Prod.mk_add_mk]
  push_cast
  congr 1
  · ring
  · ring

/-- An atom of the cell is where the turns of the screw lead to, up to whole periods. -/
theorem exists_flatPoint_eq (hbond : 0 < bond) (s : Sublattice) (i : Nat) : ∃ k l : Int,
    c.flatPoint bond s i =
      c.coordinates bond (i * c.symmetryVector.1 + s.offset) (i * c.symmetryVector.2 + s.offset) +
        c.periods bond k l := by
  rw [coordinates_add, coordinates_smul, coordinates_symmetryVector]
  cases s with
  | first =>
    obtain ⟨k, l, hmodulo⟩ := exists_modulo_eq (c := c) hbond (c.radius bond * (i * c.psi))
      (i * c.tau bond)
    have hzero : c.coordinates bond 0 0 = 0 := by simp [coordinates]
    refine ⟨k, l, hmodulo.trans ?_⟩
    rw [Sublattice.offset, hzero, add_zero, Prod.smul_mk, smul_eq_mul, smul_eq_mul, mul_left_comm]
  | second =>
    obtain ⟨k, l, hmodulo⟩ := exists_modulo_eq (c := c) hbond
      (c.radius bond * (i * c.psi + c.dpsi bond)) (i * c.tau bond - c.dtau bond)
    refine ⟨k, l, hmodulo.trans ?_⟩
    rw [Sublattice.offset, c.coordinates_third hbond, Prod.smul_mk, smul_eq_mul, smul_eq_mul,
      mul_add, mul_left_comm, sub_eq_add_neg, ← Prod.mk_add_mk]

/-- An atom of the cell, moved by whole periods, stands at a site, and the screw reaches it. -/
theorem exists_moved_eq (hbond : 0 < bond) (s : Sublattice) (i : Nat) : ∃ k l : Int, ∀ u v : Int,
    c.flatPoint bond s i + c.periods bond u v =
      c.coordinates bond
        ((i * c.symmetryVector.1 + (k + u) * c.n + (l + v) * c.t1 : Int) + s.offset)
        ((i * c.symmetryVector.2 + (k + u) * c.m + (l + v) * c.t2 : Int) + s.offset) := by
  obtain ⟨k, l, hpoint⟩ := exists_flatPoint_eq (c := c) hbond s i
  refine ⟨k, l, fun u v => ?_⟩
  rw [hpoint, add_assoc, ← periods_add, ← coordinates_moved]
  push_cast
  congr 1
  · ring
  · ring

/-- **An atom of the cell stands for the sites that the screw reaches with its turns.** -/
theorem isCongruent_iff (hbond : 0 < bond) (s : Sublattice) {i : Nat} {a b : Int} :
    c.IsCongruent bond (c.flatPoint bond s i)
        (c.coordinates bond (a + s.offset) (b + s.offset)) ↔ c.Reaches i a b := by
  obtain ⟨k, l, hmoved⟩ := exists_moved_eq (c := c) hbond s i
  unfold IsCongruent Reaches
  constructor
  · rintro ⟨u, v, h⟩
    rw [hmoved] at h
    obtain ⟨ha, hb⟩ := eq_of_coordinates_eq hbond h
    exact ⟨k + u, l + v, ha, hb⟩
  · rintro ⟨u, v, rfl, rfl⟩
    refine ⟨u - k, v - l, ?_⟩
    rw [hmoved, add_sub_cancel, add_sub_cancel]

end Chirality

/-! ## The sheet -/

/-- **An atom of the sheet**: one of the flat cell, moved by whole periods around and along the
tube. -/
@[ext]
structure SheetAtom (c : Chirality) where
  sublattice : Sublattice
  turns : Nat
  turns_lt : turns < c.hexagons
  around : Int
  along : Int

namespace SheetAtom

variable {c : Chirality} {bond : ℝ}

/-- How far around and along the tube an atom is. -/
noncomputable def point (bond : ℝ) (A : SheetAtom c) : ℝ × ℝ :=
  c.flatPoint bond A.sublattice A.turns + c.periods bond A.around A.along

/-- Where an atom is in the plane of x and z. -/
noncomputable def place (bond : ℝ) (A : SheetAtom c) : Vec3 ℝ :=
  ⟨(A.point bond).1, 0, (A.point bond).2⟩

/-- An atom stands at a site of its sublattice. -/
def IsAt (bond : ℝ) (A : SheetAtom c) (s : Sublattice) (a b : Int) : Prop :=
  A.sublattice = s ∧ A.point bond = c.coordinates bond (a + s.offset) (b + s.offset)

theorem exists_isAt (hbond : 0 < bond) (A : SheetAtom c) : ∃ a b, A.IsAt bond A.sublattice a b := by
  obtain ⟨k, l, hmoved⟩ := Chirality.exists_moved_eq (c := c) hbond A.sublattice A.turns
  exact ⟨_, _, rfl, hmoved A.around A.along⟩

theorem reaches_of_isAt (hbond : 0 < bond) {A : SheetAtom c} {s : Sublattice} {a b : Int}
    (h : A.IsAt bond s a b) : c.Reaches A.turns a b := by
  obtain ⟨rfl, hpoint⟩ := h
  exact (Chirality.isCongruent_iff hbond A.sublattice).1 ⟨A.around, A.along, hpoint.symm⟩

/-- **At each site there is one atom.** -/
theorem existsUnique_atom (c : Chirality) (hbond : 0 < bond) (s : Sublattice) (a b : Int) :
    ∃! A : SheetAtom c, A.IsAt bond s a b := by
  obtain ⟨i, ⟨hi, hreach⟩, huniq⟩ := c.existsUnique_reaches a b
  obtain ⟨u, v, huv⟩ := (Chirality.isCongruent_iff hbond s).2 hreach
  refine ⟨⟨s, i, hi, u, v⟩, ⟨rfl, huv.symm⟩, ?_⟩
  intro A hA
  have hturns : A.turns = i := huniq A.turns ⟨A.turns_lt, reaches_of_isAt hbond hA⟩
  obtain ⟨hs, hpoint⟩ := hA
  rw [huv, point, hs, hturns, add_right_inj] at hpoint
  obtain ⟨haround, halong⟩ := Chirality.periods_injective hbond hpoint
  exact SheetAtom.ext hs hturns (by exact_mod_cast haround) (by exact_mod_cast halong)

/-- The distance of two atoms in terms of their sites. -/
theorem dist_place_eq_iff (hbond : 0 < bond) {A B : SheetAtom c} {s s' : Sublattice}
    {a b a' b' : Int} (hA : A.IsAt bond s a b) (hB : B.IsAt bond s' a' b') :
    Vec3.dist (A.place bond) (B.place bond) = bond ↔
      3 * hexForm ((a' - a : Int) + (s'.offset - s.offset))
        ((b' - b : Int) + (s'.offset - s.offset)) = 1 := by
  have hsq : Vec3.dist (A.place bond) (B.place bond) = √(3 * bond ^ 2 *
      hexForm ((a' - a : Int) + (s'.offset - s.offset))
        ((b' - b : Int) + (s'.offset - s.offset))) := by
    have hdiff : B.point bond = A.point bond + c.coordinates bond
        ((a' - a : Int) + (s'.offset - s.offset)) ((b' - b : Int) + (s'.offset - s.offset)) := by
      rw [hA.2, hB.2, ← Chirality.coordinates_add]
      congr 1
      · push_cast
        ring
      · push_cast
        ring
    rw [← c.coordinates_sq]
    unfold place
    rw [hdiff]
    change √(_ * _ + _ * _ + _ * _) = _
    congr 1
    change (_ - (_ + _)) * (_ - (_ + _)) + (0 - 0) * (0 - 0) + (_ - (_ + _)) * (_ - (_ + _)) = _
    ring
  rw [hsq, Real.sqrt_eq_iff_mul_self_eq_of_pos hbond]
  constructor
  · intro h
    have hpos : bond ^ 2 ≠ 0 := by positivity
    apply mul_right_cancel₀ hpos
    linear_combination -h
  · intro h
    linear_combination -bond ^ 2 * h

/-- **An atom has three neighbors**, the atoms at the end of its steps. -/
theorem ncard_neighbors (hbond : 0 < bond) (A : SheetAtom c) :
    {B : SheetAtom c | Vec3.dist (A.place bond) (B.place bond) = bond}.ncard = 3 ∧
      ∀ B : SheetAtom c, Vec3.dist (A.place bond) (B.place bond) = bond →
        B.sublattice = A.sublattice.other := by
  obtain ⟨a, b, hA⟩ := exists_isAt hbond A
  choose atomAt hat huniq using existsUnique_atom c hbond A.sublattice.other
  have hneighbor (B : SheetAtom c) : Vec3.dist (A.place bond) (B.place bond) = bond ↔
      ∃ d ∈ A.sublattice.steps, atomAt (a + d.1) (b + d.2) = B := by
    obtain ⟨a', b', hB⟩ := exists_isAt hbond B
    rw [dist_place_eq_iff hbond hA hB, three_hexForm_eq_one_iff]
    constructor
    · rintro ⟨hother, hstep⟩
      refine ⟨_, hstep, ?_⟩
      rw [hother] at hB
      rw [add_sub_cancel, add_sub_cancel, huniq a' b' B hB]
    · rintro ⟨⟨x, y⟩, hstep, rfl⟩
      have hother := (hat (a + x) (b + y)).1
      have hsite := hB.2
      rw [hother] at hsite
      obtain ⟨rfl, rfl⟩ := Chirality.eq_of_coordinates_eq hbond
        (hsite.symm.trans (hat (a + x) (b + y)).2)
      rw [add_sub_cancel_left, add_sub_cancel_left]
      exact ⟨hother, hstep⟩
  constructor
  · have himage : {B : SheetAtom c | Vec3.dist (A.place bond) (B.place bond) = bond} =
        (fun d : Int × Int => atomAt (a + d.1) (b + d.2)) '' ↑A.sublattice.steps := by
      ext B
      rw [Set.mem_ofPred_eq, hneighbor, Set.mem_image]
      rfl
    rw [himage, Set.ncard_image_of_injective, Set.ncard_coe_finset, Sublattice.card_steps]
    rintro ⟨x, y⟩ ⟨x', y'⟩ h
    dsimp only at h
    have hsite := (hat (a + x) (b + y)).2
    rw [h, (hat (a + x') (b + y')).2] at hsite
    obtain ⟨hx, hy⟩ := Chirality.eq_of_coordinates_eq hbond hsite
    ext
    · dsimp only
      omega
    · dsimp only
      omega
  · intro B hB
    obtain ⟨d, -, rfl⟩ := (hneighbor B).1 hB
    exact (hat _ _).1

end SheetAtom

/-! ## Graphene -/

namespace Chirality

/-- **The flat cell of a tube is graphene** with the periods `a1` and `a2`. -/
structure IsGraphene {V : Type*} [NormedAddCommGroup V] [InnerProductSpace ℝ V] (c : Chirality)
    (bond : ℝ) (basis : Basis) (a1 a2 : V) : Prop where
  perpendicular : inner ℝ (c.chiralVector a1 a2) (c.axialVector a1 a2) = 0
  around : ‖c.chiralVector a1 a2‖ = c.circumference bond
  along : ‖c.axialVector a1 a2‖ = c.axialPeriod bond
  /-- A turn of the screw leads from one hexagon to another. -/
  screw : c.components a1 a2
      ((c.symmetryVector.1 : ℝ) • a1 + (c.symmetryVector.2 : ℝ) • a2) =
    (c.radius bond * c.psi, c.tau bond)
  /-- A third of `a1 + a2` leads from the first to the second atom of a hexagon. -/
  second : c.components a1 a2 ((1 / 3 : ℝ) • (a1 + a2)) =
    (c.radius bond * c.dpsi bond, -c.dtau bond)
  count : (flatAtoms c bond basis).length = 2 * c.hexagons.toNat
  /-- The atoms of the cell are at the flat points, in order, up to what is snapped. -/
  atoms : ∀ (s : Sublattice) (i : Nat), i < c.hexagons →
    (flatAtoms c bond basis)[2 * i + s.index]? = some (Atom.placed (s.element basis)
      ⟨snap (c.circumference bond) (c.flatPoint bond s i).1, 0,
        snap (c.axialPeriod bond) (c.flatPoint bond s i).2⟩)
  /-- Each atom is at a site, up to whole periods. -/
  isSite : ∀ (s : Sublattice) (i : Nat), i < c.hexagons → ∃ a b : Int,
    c.IsCongruent bond (c.flatPoint bond s i) (c.components a1 a2 (siteVector a1 a2 s a b))
  /-- Each site has one atom, up to whole periods. -/
  existsUnique : ∀ (s : Sublattice) (a b : Int), ∃! i : Nat, i < c.hexagons ∧
    c.IsCongruent bond (c.flatPoint bond s i) (c.components a1 a2 (siteVector a1 a2 s a b))
  /-- In the sheet every atom has three neighbors. -/
  neighbors : ∀ A : SheetAtom c,
    {B : SheetAtom c | Vec3.dist (A.place bond) (B.place bond) = bond}.ncard = 3 ∧
      ∀ B : SheetAtom c, Vec3.dist (A.place bond) (B.place bond) = bond →
        B.sublattice = A.sublattice.other

variable {V : Type*} [NormedAddCommGroup V] [InnerProductSpace ℝ V] {bond : ℝ} {a1 a2 : V}

theorem components_siteVector (c : Chirality) (h : IsHexagonal bond a1 a2) (hbond : 0 < bond)
    (s : Sublattice) (a b : Int) :
    c.components a1 a2 (siteVector a1 a2 s a b) =
      c.coordinates bond (a + s.offset) (b + s.offset) := by
  rw [← c.components_combine h hbond]
  unfold siteVector
  congr 1
  module

/-- **The unit cell of a flat tube is graphene**, for all indices and every bond length. -/
theorem flat_cell_is_graphene (c : Chirality) (hbond : 0 < bond) (h : IsHexagonal bond a1 a2)
    (basis : Basis) : c.IsGraphene bond basis a1 a2 where
  perpendicular := c.inner_chiralVector_axialVector h
  around := c.norm_chiralVector h hbond
  along := c.norm_axialVector h hbond
  screw := by
    rw [c.components_combine h hbond, coordinates_symmetryVector]
  second := by
    rw [smul_add, c.components_combine h hbond, c.coordinates_third hbond]
  count := by
    rw [flatAtoms, List.length_map, length_screwSites]
  atoms s _ hi := c.getElem?_flatAtoms bond basis s hi
  isSite s i _ := by
    refine ⟨i * c.symmetryVector.1, i * c.symmetryVector.2, ?_⟩
    rw [c.components_siteVector h hbond, isCongruent_iff hbond]
    exact ⟨0, 0, by ring, by ring⟩
  existsUnique s a b := by
    simp only [c.components_siteVector h hbond, isCongruent_iff hbond]
    exact c.existsUnique_reaches a b
  neighbors := SheetAtom.ncard_neighbors hbond

/-- Periods of graphene in the plane of complex numbers, for bonds of length one. -/
theorem isHexagonal_complex : IsHexagonal 1 (⟨√3, 0⟩ : ℂ) ⟨√3 / 2, 3 / 2⟩ := by
  have hthree : √3 * √3 = (3 : ℝ) := Real.mul_self_sqrt (by norm_num)
  have hleft : ‖(⟨√3, 0⟩ : ℂ)‖ = √3 := by
    rw [Complex.norm_def, Complex.normSq_mk, hthree, mul_zero, add_zero]
  have hright : ‖(⟨√3 / 2, 3 / 2⟩ : ℂ)‖ = √3 := by
    rw [Complex.norm_def, Complex.normSq_mk]
    congr 1
    linear_combination hthree / 4
  have hinner : inner ℝ (⟨√3, 0⟩ : ℂ) ⟨√3 / 2, 3 / 2⟩ = 3 / 2 := by
    rw [Complex.inner]
    simp
    linear_combination hthree / 2
  refine ⟨by rw [hleft, mul_one], by rw [hright, mul_one], ?_⟩
  unfold InnerProductGeometry.angle
  rw [hinner, hleft, hright, hthree, show (3 / 2 / 3 : ℝ) = Real.cos (Real.pi / 3) by
    rw [Real.cos_pi_div_three]
    norm_num]
  exact Real.arccos_cos (by positivity) (by linarith [Real.pi_pos])

/-- A left-handed sheet of two elements. -/
theorem flat_cell_is_graphene_leftHanded :
    (0 : ℝ) < 1 ∧ IsHexagonal 1 (⟨√3, 0⟩ : ℂ) ⟨√3 / 2, 3 / 2⟩ ∧
      (⟨4, 7, by decide⟩ : Chirality).IsGraphene 1 ⟨"B", "N"⟩ (⟨√3, 0⟩ : ℂ) ⟨√3 / 2, 3 / 2⟩ :=
  ⟨one_pos, isHexagonal_complex,
    flat_cell_is_graphene ⟨4, 7, by decide⟩ one_pos isHexagonal_complex ⟨"B", "N"⟩⟩

end Chirality

end Honeycomb
