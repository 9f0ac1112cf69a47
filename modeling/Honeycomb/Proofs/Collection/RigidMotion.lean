import Honeycomb.Proofs.Collection.Operation
import Honeycomb.Proofs.Geometry.Rotation

/-!
# Rigid motions in exact arithmetic

* `RigidMap` — an orthogonal matrix and then a shift; `RigidMap.place` — the image of a point;
  `RigidMap.carry` — an atom that is taken along, its velocity turned.
* `Collection.IsCarried` — up to what is known about neighbors, the atoms are those of another
  collection under one rigid map; `Collection.centroid_carried` — where the centroid is then.
* `Collection.IsRigidImage` — what two collections have in common when only positions, velocities
  and neighbor data differ, and distances, speeds and inner products of velocities do not.
* `Collection.Operation.IsRigid` — shifts, centering, and rotations; `Collection.perform_cases` —
  such an operation is refused, or shifts all atoms, or turns them by an orthogonal matrix.
* `Collection.Operation.Moves` — what one of them does to centroid and neighbor data.

Principal result: `Collection.motions_are_rigid` — every run of rigid motions leads to a rigid image
of the collection that it began with, whatever the pivots are.
-/

set_option autoImplicit false

namespace Honeycomb

/-! ## Rigid maps -/

/-- An orthogonal matrix, and then a shift. -/
structure RigidMap where
  turn : Mat3 ℝ
  shift : Vec3 ℝ
  isOrthogonal : turn.IsOrthogonal

namespace RigidMap

/-- The image of a point. -/
noncomputable def place (f : RigidMap) (p : Vec3 ℝ) : Vec3 ℝ :=
  f.turn.mulVec p + f.shift

/-- An atom that is taken along. -/
noncomputable def carry (f : RigidMap) (a : Atom ℝ) : Atom ℝ :=
  { a with position := f.place a.position, velocity := f.turn.mulVec a.velocity }

/-- The shift by a vector. -/
noncomputable def shiftBy (t : Vec3 ℝ) : RigidMap :=
  ⟨.one, t, Mat3.isOrthogonal_one⟩

/-- The turn by a matrix about a pivot. -/
noncomputable def turnAbout {m : Mat3 ℝ} (hm : m.IsOrthogonal) (pivot : Vec3 ℝ) : RigidMap :=
  ⟨m, pivot - m.mulVec pivot, hm⟩

/-- One map after another. -/
noncomputable def after (g f : RigidMap) : RigidMap :=
  ⟨g.turn.mul f.turn, g.place f.shift, g.isOrthogonal.mul f.isOrthogonal⟩

variable (f g : RigidMap)

theorem place_shiftBy (t p : Vec3 ℝ) : (shiftBy t).place p = p + t := by
  rw [place, shiftBy, Mat3.one_mulVec]

theorem place_turnAbout {m : Mat3 ℝ} (hm : m.IsOrthogonal) (pivot p : Vec3 ℝ) :
    (turnAbout hm pivot).place p = m.turnAbout pivot p := by
  change m.mulVec p + (pivot - m.mulVec pivot) = pivot + m.mulVec (p - pivot)
  rw [Mat3.mulVec_sub]
  abel

/-- The pivot stays where it is. -/
theorem place_pivot {m : Mat3 ℝ} (hm : m.IsOrthogonal) (pivot : Vec3 ℝ) :
    (turnAbout hm pivot).place pivot = pivot :=
  add_sub_cancel _ _

theorem place_after (p : Vec3 ℝ) : (g.after f).place p = g.place (f.place p) := by
  simp only [place, after, Mat3.mulVec_mul, Mat3.mulVec_add]
  abel

theorem carry_after (a : Atom ℝ) : (g.after f).carry a = g.carry (f.carry a) := by
  rw [carry, place_after]
  simp only [after, Mat3.mulVec_mul]
  rfl

theorem carry_shiftBy_zero (a : Atom ℝ) : (shiftBy 0).carry a = a := by
  rw [carry, place_shiftBy, add_zero]
  simp only [shiftBy, Mat3.one_mulVec]

/-- **Distances are kept.** -/
theorem dist_place (p q : Vec3 ℝ) : (f.place p).dist (f.place q) = p.dist q := by
  have hsub : f.place p - f.place q = f.turn.mulVec (p - q) := by
    rw [place, place, Mat3.mulVec_sub]
    abel
  rw [Vec3.dist, hsub, f.isOrthogonal.norm_mulVec]
  rfl

/-! ### Means -/

theorem sum_place (ps : List (Vec3 ℝ)) :
    Vec3.sum (ps.map f.place) = f.turn.mulVec (Vec3.sum ps) + f.shift * (ps.length : ℝ) := by
  simp only [Vec3.sum_eq]
  induction ps with
  | nil =>
    have hturn : f.turn.mulVec 0 = 0 := map_zero (AddMonoidHom.mk' f.turn.mulVec f.turn.mulVec_add)
    have hshift : f.shift * (0 : ℝ) = 0 := by
      change Vec3.mk (_ * 0) (_ * 0) (_ * 0) = 0
      simp only [mul_zero, Vec3.zero_eq]
    rw [List.map_nil, List.sum_nil, List.length_nil, Nat.cast_zero, hturn, hshift, add_zero]
  | cons p ps ih =>
    rw [List.map_cons, List.sum_cons, ih, List.sum_cons, List.length_cons, Nat.cast_add_one,
      Vec3.mul_add_one, Mat3.mulVec_add, place]
    abel

/-- **The mean of points is taken along with them.** -/
theorem mean_place {ps : List (Vec3 ℝ)} (h : ps ≠ []) :
    Vec3.sum (ps.map f.place) / (ps.length : ℝ) = f.place (Vec3.sum ps / (ps.length : ℝ)) := by
  have hlength : (ps.length : ℝ) ≠ 0 := by simpa using h
  rw [sum_place, ← Vec3.div_add_div, Vec3.mul_div_cancel _ hlength, place, Mat3.mulVec_div]

end RigidMap

/-! ## Atoms that are carried -/

/-- All that an atom is, but for where it is, how it moves and what is known about its
neighbors. -/
def Atom.identity {α : Type} (a : Atom α) :
    Nat × String × Nat × α × α × Nat × Nat × Option (FrameLink α) :=
  (a.id, a.element, a.atomicNumber, a.charge, a.mass, a.molecule, a.type, a.frameLink)

theorem Atom.forgetNeighbors_carry (f : RigidMap) (a : Atom ℝ) :
    (f.carry a.forgetNeighbors).forgetNeighbors = f.carry a.forgetNeighbors := by
  obtain ⟨_, _, _, _, _, _, _, _, _, surroundings, _, poav⟩ := a
  cases surroundings <;> cases poav <;> rfl

namespace Collection

/-- Up to what is known about neighbors, the atoms of the second collection are those of the first
one under one rigid map. The defaults of the neighbor search are the same. -/
def IsCarried (c c' : Collection ℝ) : Prop :=
  c'.params = c.params ∧ ∃ f : RigidMap,
    c'.atoms.map Atom.forgetNeighbors = c.atoms.map fun a => f.carry a.forgetNeighbors

/-- The value of each pair of atoms, in order. -/
def table {β : Type} (c : Collection ℝ) (value : Atom ℝ → Atom ℝ → β) : List (List β) :=
  c.atoms.map fun a => c.atoms.map (value a)

/-- Two collections of the same atoms in the same order, at the same distances from each other and
moving at the same speeds and at the same angles. -/
structure IsRigidImage (c c' : Collection ℝ) : Prop where
  params : c'.params = c.params
  identities : c'.atoms.map Atom.identity = c.atoms.map Atom.identity
  distances : (c'.table fun a b => a.position.dist b.position) =
    c.table fun a b => a.position.dist b.position
  speeds : c'.atoms.map (·.velocity.norm) = c.atoms.map (·.velocity.norm)
  products : (c'.table fun a b => a.velocity.dot b.velocity) =
    c.table fun a b => a.velocity.dot b.velocity

variable {c c' c'' : Collection ℝ}

theorem IsCarried.refl (c : Collection ℝ) : c.IsCarried c := by
  refine ⟨rfl, .shiftBy 0, ?_⟩
  simp only [RigidMap.carry_shiftBy_zero]

theorem IsCarried.trans (h : c.IsCarried c') (h' : c'.IsCarried c'') : c.IsCarried c'' := by
  obtain ⟨hparams, f, hf⟩ := h
  obtain ⟨hparams', g, hg⟩ := h'
  refine ⟨hparams'.trans hparams, g.after f, ?_⟩
  calc c''.atoms.map Atom.forgetNeighbors
      = (c'.atoms.map Atom.forgetNeighbors).map g.carry := by rw [hg, List.map_map]; rfl
    _ = c.atoms.map fun a => (g.after f).carry a.forgetNeighbors := by
        rw [hf, List.map_map]
        exact List.map_congr_left fun a _ => (RigidMap.carry_after f g _).symm

theorem IsCarried.map_eq {β : Type} (h : c.IsCarried c') {view : Atom ℝ → β}
    (hforget : ∀ a, view a.forgetNeighbors = view a)
    (hcarry : ∀ f a, view (RigidMap.carry f a) = view a) :
    c'.atoms.map view = c.atoms.map view := by
  obtain ⟨-, f, hf⟩ := h
  calc c'.atoms.map view
      = (c'.atoms.map Atom.forgetNeighbors).map view := by simp [Function.comp_def, hforget]
    _ = c.atoms.map view := by
      rw [hf]
      simp [Function.comp_def, hcarry, hforget]

theorem IsCarried.table_eq {β : Type} (h : c.IsCarried c') {value : Atom ℝ → Atom ℝ → β}
    (hforget : ∀ a b, value a.forgetNeighbors b.forgetNeighbors = value a b)
    (hcarry : ∀ f a b, value (RigidMap.carry f a) (f.carry b) = value a b) :
    c'.table value = c.table value := by
  obtain ⟨-, f, hf⟩ := h
  calc c'.table value
      = (c'.atoms.map Atom.forgetNeighbors).map fun a =>
          (c'.atoms.map Atom.forgetNeighbors).map (value a) := by
        simp [table, Function.comp_def, hforget]
    _ = c.table value := by
      rw [hf]
      simp [table, Function.comp_def, hcarry, hforget]

/-- **A rigid map leads to a rigid image.** -/
theorem IsCarried.isRigidImage (h : c.IsCarried c') : c.IsRigidImage c' where
  params := h.1
  identities := h.map_eq (fun _ => rfl) (fun _ _ => rfl)
  distances := h.table_eq (fun _ _ => rfl) fun f a b => f.dist_place a.position b.position
  speeds := h.map_eq (fun _ => rfl) fun f a => f.isOrthogonal.norm_mulVec a.velocity
  products := h.table_eq (fun _ _ => rfl) fun f a b =>
    Mat3.isOrthogonal_iff_dot.1 f.isOrthogonal a.velocity b.velocity

/-! ## Motions of a collection -/

/-- What is known about neighbors is no more. -/
def IsBare {α : Type} (c : Collection α) : Prop :=
  ∀ a ∈ c.atoms, a.coordination = none ∧ a.neighbors = none ∧ ∀ kind, a.poavOf kind = none

theorem isBare_modifyAll {f : Atom ℝ → Atom ℝ} {r : Revision}
    (h : ∀ a, (f a).surroundings = a.surroundings ∧ (f a).poav = a.poav) :
    (c.modifyAll f r).1.IsBare := by
  intro b hb
  obtain ⟨a, -, rfl⟩ := List.mem_map.1 hb
  obtain ⟨hsurroundings, hpoav⟩ := h a.forgetNeighbors
  refine ⟨?_, ?_, fun kind => ?_⟩
  · rw [← Atom.coordination_forgetNeighbors a, Atom.coordination, hsurroundings]
    rfl
  · rw [← Atom.neighbors_forgetNeighbors a, Atom.neighbors, hsurroundings]
    rfl
  · rw [← Atom.poavOf_forgetNeighbors a kind, Atom.poavOf, hpoav]
    rfl

theorem atoms_shiftBy (c : Collection ℝ) (t : Vec3 ℝ) (r : Revision) :
    (c.shiftBy t r).1.atoms =
      c.atoms.map fun a => (RigidMap.shiftBy t).carry a.forgetNeighbors := by
  refine List.map_congr_left fun a _ => ?_
  rw [RigidMap.carry, RigidMap.place_shiftBy]
  simp only [RigidMap.shiftBy, Mat3.one_mulVec]

theorem atoms_rotate (c : Collection ℝ) {m : Mat3 ℝ} (hm : m.IsOrthogonal)
    (pivot : Option (Vec3 ℝ)) (r : Revision) :
    (c.rotate m pivot r).1.atoms = c.atoms.map fun a =>
      (RigidMap.turnAbout hm (pivot.getD c.centroid)).carry a.forgetNeighbors := by
  refine List.map_congr_left fun a _ => ?_
  rw [RigidMap.carry, RigidMap.place_turnAbout]
  rfl

/-- **The centroid of some atoms is taken along.** -/
theorem centroid_carried {f : RigidMap}
    (h : c'.atoms = c.atoms.map fun a => f.carry a.forgetNeighbors) (hne : c.atoms ≠ []) :
    c'.centroid = f.place c.centroid := by
  have hmean {k : Collection ℝ} (hk : k.atoms ≠ []) :
      k.centroid = Vec3.sum k.positions / (k.positions.length : ℝ) := by
    rw [centroid, if_neg (by simpa [isEmpty] using hk), Scalar.ofNat_real, positions,
      List.length_map, size]
  have hpositions : c'.positions = c.positions.map f.place := by
    simp only [positions, h, List.map_map]
    rfl
  have hne' : c'.atoms ≠ [] := by
    rw [h]
    simpa using hne
  rw [hmean hne, hmean hne', hpositions, List.length_map, f.mean_place]
  simpa [positions] using hne

/-- Without atoms the centroid is at the origin. -/
theorem centroid_eq_zero (h : c.atoms = []) : c.centroid = 0 :=
  if_pos (by simp [isEmpty, h])

theorem IsCarried.of_atoms {f : RigidMap} (hparams : c'.params = c.params)
    (h : c'.atoms = c.atoms.map fun a => f.carry a.forgetNeighbors) : c.IsCarried c' := by
  refine ⟨hparams, f, ?_⟩
  rw [h, List.map_map]
  exact List.map_congr_left fun a _ => Atom.forgetNeighbors_carry f a

theorem centroid_center (c : Collection ℝ) (r : Revision) : (c.center r).1.centroid = 0 := by
  have hatoms : (c.center r).1.atoms = _ := atoms_shiftBy c (-c.centroid) r
  by_cases hne : c.atoms = []
  · exact centroid_eq_zero (by simpa [hne] using hatoms)
  · exact (centroid_carried hatoms hne).trans (by rw [RigidMap.place_shiftBy, add_neg_cancel])

/-- A turn for which no pivot is given leaves the centroid where it is. -/
theorem centroid_rotate_none (c : Collection ℝ) {m : Mat3 ℝ} (hm : m.IsOrthogonal) (r : Revision) :
    (c.rotate m none r).1.centroid = c.centroid := by
  have hatoms := atoms_rotate c hm none r
  by_cases hne : c.atoms = []
  · rw [centroid_eq_zero hne]
    exact centroid_eq_zero (by simpa [hne] using hatoms)
  · exact (centroid_carried hatoms hne).trans (RigidMap.place_pivot hm _)

/-! ## Runs of motions -/

namespace Operation

/-- Shifts, centering, and rotations; a matrix that is given is orthogonal. -/
def IsRigid : Operation ℝ → Prop
  | shiftBy _ | center | rotateAbout _ _ _ | rotateAxis _ _ _ | rotateEuler _ _ _ _ => True
  | rotate m _ => m.IsOrthogonal
  | _ => False

/-- The operation is a rotation that is refused. -/
def IsRefused (op : Operation ℝ) (c : Collection ℝ) : Prop :=
  match op with
  | rotateAbout angle axis pivot => ∃ e, c.rotateAbout? angle axis pivot = .error e
  | _ => False

/-- The operation is a rotation for which no pivot is given. -/
def IsTurnInPlace : Operation ℝ → Prop
  | rotate _ pivot | rotateAbout _ _ pivot | rotateAxis _ _ pivot | rotateEuler _ _ _ pivot =>
    pivot = none
  | _ => False

/-- What a motion does to a collection and to the revision that is drawn next. -/
structure Moves (op : Operation ℝ) (s s' : Collection ℝ × Revision) : Prop where
  isRefused_iff : op.IsRefused s.1 ↔ ∃ angle pivot, op = .rotateAbout angle 0 pivot
  refused : op.IsRefused s.1 → s' = s
  forgets : ¬op.IsRefused s.1 → s'.1.IsBare
  centers : op = .center → s'.1.centroid = 0
  turnsInPlace : op.IsTurnInPlace → s'.1.centroid = s.1.centroid

/-- The refused rotations are those about the zero vector. -/
theorem isRefused_iff (op : Operation ℝ) (c : Collection ℝ) :
    op.IsRefused c ↔ ∃ angle pivot, op = .rotateAbout angle 0 pivot := by
  cases op with
  | rotateAbout angle axis pivot =>
    have herror : (∃ e, c.rotateAbout? angle axis pivot = .error e) ↔
        ∃ e, Mat3.about? axis angle = .error e := by
      unfold rotateAbout?
      cases Mat3.about? axis angle <;> simp [Except.map]
    rw [IsRefused, herror, Mat3.about?_eq_error_iff]
    simp
  | _ => simp [IsRefused]

end Operation

/-- **What a rigid motion comes to**: it is refused, or it is a shift, or it is a turn by an
orthogonal matrix. -/
theorem perform_cases {op : Operation ℝ} (h : op.IsRigid) (c : Collection ℝ) :
    (op.IsRefused c ∧ op.perform c = pure c) ∨
      ¬op.IsRefused c ∧
        ((¬op.IsTurnInPlace ∧ ∃ t, op.perform c = c.shiftBy t) ∨
          op ≠ .center ∧ ∃ m pivot, m.IsOrthogonal ∧ op.perform c = c.rotate m pivot ∧
            (op.IsTurnInPlace → pivot = none)) := by
  cases op with
  | shiftBy t => exact .inr ⟨id, .inl ⟨id, t, rfl⟩⟩
  | center => exact .inr ⟨id, .inl ⟨id, _, rfl⟩⟩
  | rotate m pivot => exact .inr ⟨id, .inr ⟨by simp, m, pivot, h, rfl, id⟩⟩
  | rotateAxis angle axis pivot =>
    have hunit : (axis.unit : Vec3 ℝ).dot axis.unit = 1 := by
      cases axis <;> simp [Axis.unit, Vec3.dot, Vec3.ex, Vec3.ey, Vec3.ez]
    exact .inr ⟨id, .inr ⟨by simp, _, pivot, Mat3.isOrthogonal_axisAngle hunit angle, rfl, id⟩⟩
  | rotateEuler roll pitch yaw pivot =>
    exact .inr ⟨id, .inr ⟨by simp, _, pivot, Mat3.isOrthogonal_euler roll pitch yaw, rfl, id⟩⟩
  | rotateAbout angle axis pivot =>
    simp only [Operation.IsRefused, Operation.perform, rotateAbout?]
    cases hm : Mat3.about? axis angle with
    | error e => exact .inl ⟨⟨e, rfl⟩, rfl⟩
    | ok m =>
      exact .inr ⟨by simp [Except.map],
        .inr ⟨by simp, m, pivot, Mat3.isOrthogonal_of_about? hm, rfl, id⟩⟩
  | _ => exact h.elim

/-- A motion takes the atoms along. -/
theorem isCarried_perform {op : Operation ℝ} (h : op.IsRigid) (c : Collection ℝ) (r : Revision) :
    c.IsCarried (op.perform c r).1 := by
  obtain ⟨-, heq⟩ | ⟨-, ⟨-, t, heq⟩ | ⟨-, m, pivot, hm, heq, -⟩⟩ := perform_cases h c
  · rw [heq]
    exact .refl c
  · rw [heq]
    exact .of_atoms rfl (atoms_shiftBy c t r)
  · rw [heq]
    exact .of_atoms rfl (atoms_rotate c hm pivot r)

theorem moves_perform {op : Operation ℝ} (h : op.IsRigid) (s : Collection ℝ × Revision) :
    op.Moves s (op.perform s.1 s.2) := by
  obtain ⟨hrefused, heq⟩ | ⟨haccepted, ⟨hturn, t, heq⟩ | ⟨hcenter, m, pivot, hm, heq, hturn⟩⟩ :=
    perform_cases h s.1
  · have hcenter : op ≠ .center := by
      rintro rfl
      exact hrefused
    rw [heq]
    exact ⟨op.isRefused_iff s.1, fun _ => rfl, fun haccepted => (haccepted hrefused).elim,
      fun hop => (hcenter hop).elim, fun _ => rfl⟩
  · refine ⟨op.isRefused_iff s.1, fun hrefused => (haccepted hrefused).elim, fun _ => ?_, ?_,
      fun h => (hturn h).elim⟩
    · rw [heq]
      exact isBare_modifyAll fun _ => ⟨rfl, rfl⟩
    · rintro rfl
      exact centroid_center s.1 s.2
  · rw [heq]
    refine ⟨op.isRefused_iff s.1, fun hrefused => (haccepted hrefused).elim, fun _ => ?_,
      fun hop => (hcenter hop).elim, fun hplace => ?_⟩
    · exact isBare_modifyAll fun _ => ⟨rfl, rfl⟩
    · rw [hturn hplace]
      exact centroid_rotate_none s.1 hm s.2

/-- A run of motions takes the atoms along. -/
theorem isCarried_performAll (c : Collection ℝ) (r : Revision) {ops : List (Operation ℝ)}
    (hops : ∀ op ∈ ops, op.IsRigid) : c.IsCarried (c.performAll r ops).1 := by
  induction ops generalizing c r with
  | nil => exact .refl c
  | cons op ops ih =>
    rw [List.forall_mem_cons] at hops
    exact (isCarried_perform hops.1 c r).trans (ih _ _ hops.2)

/-- **Rigid motions are rigid and touch nothing else.** However many there are, and about whatever
pivots they turn, the atoms stay the same in the same order, at the same distances, and with the
same speeds and inner products of velocities. Each motion of the run that is not refused leaves no
neighbor data behind. -/
theorem motions_are_rigid (c : Collection ℝ) (r : Revision) {ops : List (Operation ℝ)}
    (hops : ∀ op ∈ ops, op.IsRigid) :
    c.IsRigidImage (c.performAll r ops).1 ∧
      ∀ earlier op, earlier ++ [op] <+: ops →
        op.Moves (c.performAll r earlier) (c.performAll r (earlier ++ [op])) := by
  refine ⟨(isCarried_performAll c r hops).isRigidImage, fun earlier op hrun => ?_⟩
  have hop : op.IsRigid := hops op (hrun.subset (by simp))
  have hstep : c.performAll r (earlier ++ [op]) =
      op.perform (c.performAll r earlier).1 (c.performAll r earlier).2 := by
    rw [performAll, List.foldl_append]
    rfl
  rw [hstep]
  exact moves_perform hop _

/-- Two atoms, one of them moving and one with a coordination number. -/
noncomputable def dimer : Collection ℝ where
  atoms := [{ Atom.placed "C" 0 with velocity := ⟨1, 0, 0⟩ },
    (Atom.placed "C" ⟨0, 1, 1⟩).withCoordination 1]
  params := {}
  typeTable := none
  revision := 0

/-- A shift, a third of a turn, the way to the origin, and a rotation that is refused. -/
noncomputable def tour : List (Operation ℝ) :=
  [.shiftBy ⟨1, 0, 1⟩, .rotate ⟨⟨0, 0, 1⟩, ⟨1, 0, 0⟩, ⟨0, 1, 0⟩⟩ none, .center,
    .rotateAbout 1 0 none]

theorem motions_are_rigid_tour :
    (∀ op ∈ tour, op.IsRigid) ∧ dimer.IsRigidImage (dimer.performAll 0 tour).1 ∧
      (dimer.performAll 0 tour).1.IsBare ∧ (dimer.performAll 0 tour).1.centroid = 0 := by
  have hops : ∀ op ∈ tour, op.IsRigid := by
    simp [tour, Operation.IsRigid, Mat3.isOrthogonal_iff]
  obtain ⟨himage, hmoves⟩ := motions_are_rigid dimer 0 hops
  have hcenter := hmoves (tour.take 2) .center ⟨tour.drop 3, rfl⟩
  have hlast := hmoves (tour.take 3) (.rotateAbout 1 0 none) ⟨[], rfl⟩
  have hsame : dimer.performAll 0 tour = dimer.performAll 0 (tour.take 3) :=
    hlast.refused (hlast.isRefused_iff.2 ⟨1, none, rfl⟩)
  rw [hsame] at himage ⊢
  exact ⟨hops, himage, hcenter.forgets id, hcenter.centers rfl⟩

end Collection

end Honeycomb
