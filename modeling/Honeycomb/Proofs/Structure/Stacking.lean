import Honeycomb.Proofs.Collection.RigidMotion
import Honeycomb.Proofs.Lists
import Honeycomb.Structure.Layers

/-!
# Stacked layers

* `Layers.IsBuilt` — a stack of `n` layers as the constructors build it; `Layers.isBuilt_iff` — in
  exact arithmetic these are all stacks of `n` layers with a spacing that is not negative.
* `Layers.getElem?_stack` — atom `k` of layer `i` stands `i` layers and `k` atoms into the stack.
* `Layers.IsCopy` — what an atom of layer `i` has in common with the one that it was made of;
  `Layers.IsPlaced` — where it is in exact arithmetic, and how it moves.
* `Layers.motion` — the rigid map that takes the layer to layer `i`, by `Layers.place_eq_carry`.

Principal result: `Layers.stack_places_layers` — a stack holds a copy of the layer for each of its
angles, of which there are as many as layers, raised, shifted and turned as asked for.
-/

set_option autoImplicit false

namespace Honeycomb

namespace Layers

/-! ## Building a stack -/

/-- The stacks of `n` layers that can be built: by the number of layers, or as a single one, and then
with other shifts and angles. -/
inductive IsBuilt {α : Type} [Scalar α] : Layers α → Nat → Prop
  | ofCount {count : Nat} {spacing : α} {l : Layers α} (hmade : ofCount count spacing = .ok l) :
    IsBuilt l count
  | single : IsBuilt single 1
  | withShift {l : Layers α} {n : Nat} (shift : Vec3 α) (hl : IsBuilt l n) :
    IsBuilt (l.withShift shift) n
  | withIncrement {l : Layers α} {n : Nat} (increment : α) (isDegrees : Bool) (hl : IsBuilt l n) :
    IsBuilt (l.withIncrement increment isDegrees) n
  | withAngles {l l' : Layers α} {n : Nat} {angles : List α} {isDegrees : Bool} (hl : IsBuilt l n)
    (hmade : l.withAngles angles isDegrees = .ok l') : IsBuilt l' n

section

variable {α : Type} [Scalar α] {l l' : Layers α} {n count : Nat}

/-- A count is accepted if it is not zero, a spacing if it is not negative. -/
theorem ofCount_eq_ok_iff {spacing : α} :
    ofCount count spacing = .ok l ↔ 0 ≤ spacing ∧ l.count = count ∧ l.spacing = spacing ∧
      l.shift = 0 ∧ l.angles = List.replicate count 0 := by
  unfold ofCount
  constructor
  · intro h
    split_ifs at h with hcount hspacing
    obtain rfl := Except.ok.inj h
    exact ⟨hspacing, rfl, rfl, rfl, rfl⟩
  · obtain ⟨_, _, _, _, hpos, _⟩ := l
    dsimp only
    rintro ⟨hspacing, rfl, rfl, rfl, rfl⟩
    rw [dif_neg hpos.ne', if_pos hspacing]

/-- Angles are accepted if there is one for each layer, and nothing else changes. -/
theorem withAngles_eq_ok_iff {angles : List α} {isDegrees : Bool} :
    l.withAngles angles isDegrees = .ok l' ↔ angles.length = l.count ∧ l'.count = l.count ∧
      l'.spacing = l.spacing ∧ l'.shift = l.shift ∧ l'.angles = angles.map (inRadians isDegrees) := by
  unfold withAngles
  constructor
  · intro h
    split_ifs at h with hlength
    obtain rfl := Except.ok.inj h
    exact ⟨hlength, rfl, rfl, rfl, rfl⟩
  · obtain ⟨_, _, _, _, _, _⟩ := l'
    dsimp only
    rintro ⟨hlength, rfl, rfl, rfl, rfl⟩
    rw [dif_pos hlength]

/-- Shifts and angles do not change how many layers there are. -/
theorem IsBuilt.count_eq (h : l.IsBuilt n) : l.count = n := by
  induction h with
  | ofCount hmade => exact (ofCount_eq_ok_iff.1 hmade).2.1
  | single => rfl
  | withShift shift hl ih => exact ih
  | withIncrement increment isDegrees hl ih => exact ih
  | withAngles hl hmade ih => exact (withAngles_eq_ok_iff.1 hmade).2.1.trans ih

/-- **There is an angle for each layer.** -/
theorem IsBuilt.length_angles (h : l.IsBuilt n) : l.angles.length = n :=
  l.length_angles.trans h.count_eq

end

/-- **What can be built** is every stack with a spacing that is not negative. -/
theorem isBuilt_iff {l : Layers ℝ} {n : Nat} : l.IsBuilt n ↔ l.count = n ∧ 0 ≤ l.spacing := by
  constructor
  · intro h
    refine ⟨h.count_eq, ?_⟩
    induction h with
    | ofCount hmade =>
      obtain ⟨hspacing, -, heq, -⟩ := ofCount_eq_ok_iff.1 hmade
      exact heq ▸ hspacing
    | single => exact (by norm_num : (0 : ℝ) ≤ 3.35)
    | withShift shift hl ih => exact ih
    | withIncrement increment isDegrees hl ih => exact ih
    | withAngles hl hmade ih => exact (withAngles_eq_ok_iff.1 hmade).2.2.1 ▸ ih
  · rintro ⟨rfl, hspacing⟩
    let plain : Layers ℝ :=
      ⟨l.count, l.spacing, 0, List.replicate l.count 0, l.count_pos, List.length_replicate⟩
    have hplain : ofCount l.count l.spacing = .ok plain :=
      ofCount_eq_ok_iff.2 ⟨hspacing, rfl, rfl, rfl, rfl⟩
    have hangles : (plain.withShift l.shift).withAngles l.angles false = .ok l :=
      withAngles_eq_ok_iff.2 ⟨l.length_angles, rfl, rfl, rfl, (List.map_id l.angles).symm⟩
    exact .withAngles (.withShift l.shift (.ofCount hplain)) hangles

/-! ## Atoms of a stack -/

theorem exists_angle {α : Type} (l : Layers α) {i : Nat} (hi : i < l.count) :
    ∃ angle, l.angles[i]? = some angle :=
  ⟨_, List.getElem?_eq_getElem (l.length_angles ▸ hi)⟩

section

variable {α : Type} [Scalar α]

theorem length_stack (l : Layers α) (axis : Axis) (layer : List (Atom α)) :
    (l.stack axis layer).length = l.count * layer.length := by
  simp [stack, List.length_flatten, List.mapIdx_eq_zipIdx_map, Function.comp_def, l.length_angles]

theorem getElem?_stack (l : Layers α) (axis : Axis) {layer : List (Atom α)} {i k : Nat} {angle : α}
    {a : Atom α} (hangle : l.angles[i]? = some angle) (ha : layer[k]? = some a) :
    (l.stack axis layer)[i * layer.length + k]? = some (l.place axis i angle a) := by
  have hk : k < layer.length := (List.getElem?_eq_some_iff.1 ha).1
  rw [stack, List.mapIdx_eq_zipIdx_map, ← List.flatMap_def, mul_comm,
    getElem?_flatMap_of_length (fun _ => List.length_map _) hk]
  simp [hangle, ha]

/-- An atom of layer `i` and the one of the layer that it was made of. All is the same but for its
molecule, its motion, and what was known about its neighbors. -/
structure IsCopy (i : Nat) (a b : Atom α) : Prop where
  identity : b.identity = { a with molecule := i + 1 }.identity
  coordination : b.coordination = none
  neighbors : b.neighbors = none
  poav : ∀ kind, b.poavOf kind = none

theorem isCopy_place (l : Layers α) (axis : Axis) (i : Nat) (angle : α) (a : Atom α) :
    IsCopy i a (l.place axis i angle a) := by
  have hcopy (position velocity : Vec3 α) :
      IsCopy i a { a.forgetNeighbors with position, velocity, molecule := i + 1 } :=
    ⟨rfl, a.coordination_forgetNeighbors, a.neighbors_forgetNeighbors, a.poavOf_forgetNeighbors⟩
  unfold place
  dsimp only
  split
  · exact hcopy _ _
  · exact hcopy _ _

end

/-! ## Layers in exact arithmetic -/

variable (l : Layers ℝ) (axis : Axis) (i : Nat) (angle : ℝ)

/-- How far layer `i` is moved: by `i` spacings along the axis, and by the shift if it is odd. -/
noncomputable def offset : Vec3 ℝ :=
  (axis.unit : Vec3 ℝ) * ((i : ℝ) * l.spacing) + if Odd i then l.shift else 0

/-- An atom of layer `i`, placed: moved, and then turned about the z axis through the origin. -/
structure IsPlaced (a b : Atom ℝ) : Prop extends IsCopy i a b where
  position : b.position = (Mat3.turnZ angle).mulVec (a.position + l.offset axis i)
  velocity : b.velocity = (Mat3.turnZ angle).mulVec a.velocity

/-- The map that takes the layer to layer `i`. -/
noncomputable def motion : RigidMap where
  turn := Mat3.turnZ angle
  shift := (Mat3.turnZ angle).mulVec (l.offset axis i)
  isOrthogonal := Mat3.isOrthogonal_turnZ angle

theorem place_motion (p : Vec3 ℝ) :
    (l.motion axis i angle).place p = (Mat3.turnZ angle).mulVec (p + l.offset axis i) := by
  rw [RigidMap.place, motion, Mat3.mulVec_add]

/-- **A rigid map takes the layer to each of its copies.** -/
theorem place_eq_carry (a : Atom ℝ) :
    l.place axis i angle a =
      (l.motion axis i angle).carry { a.forgetNeighbors with molecule := i + 1 } := by
  have hraised : (axis.unit : Vec3 ℝ) * l.spacing * (Scalar.ofNat i : ℝ) =
      (axis.unit : Vec3 ℝ) * ((i : ℝ) * l.spacing) := by
    rw [Vec3.mul_mul, Scalar.ofNat_real, mul_comm]
  have hmoved : (if i % 2 = 1
        then a.position + (axis.unit : Vec3 ℝ) * l.spacing * (Scalar.ofNat i : ℝ) + l.shift
        else a.position + (axis.unit : Vec3 ℝ) * l.spacing * (Scalar.ofNat i : ℝ)) =
      a.position + l.offset axis i := by
    rw [hraised, offset, ← add_assoc]
    by_cases hodd : Odd i
    · rw [if_pos (Nat.odd_iff.1 hodd), if_pos hodd]
    · rw [if_neg (mt Nat.odd_iff.2 hodd), if_neg hodd, add_zero]
  rw [place, hmoved, RigidMap.carry, place_motion]
  by_cases hangle : angle = 0
  · simp [hangle, motion, Mat3.turnZ_zero, Mat3.one_mulVec, Atom.forgetNeighbors]
  · simp [hangle, motion, Mat3.axisAngle_ez, Mat3.turnAbout, Atom.forgetNeighbors]

theorem isPlaced_place (a : Atom ℝ) : l.IsPlaced axis i angle a (l.place axis i angle a) where
  toIsCopy := l.isCopy_place axis i angle a
  position := by rw [place_eq_carry, RigidMap.carry, place_motion]; rfl
  velocity := by rw [place_eq_carry]; rfl

variable {l axis i angle}

/-- Two atoms of a layer are as far apart as those that they were made of. -/
theorem IsPlaced.dist_eq {a a' b b' : Atom ℝ} (h : l.IsPlaced axis i angle a b)
    (h' : l.IsPlaced axis i angle a' b') :
    b.position.dist b'.position = a.position.dist a'.position := by
  rw [h.position, h'.position, ← place_motion, ← place_motion, RigidMap.dist_place]

/-! ## Whole stacks -/

/-- As many copies of a layer as asked for, one after another: atom `k` of layer `i` is a copy of
atom `k` of the layer. -/
structure IsStackOf {α : Type} (n : Nat) (layer stacked : List (Atom α)) : Prop where
  length_eq : stacked.length = n * layer.length
  copies : ∀ i < n, ∀ k a, layer[k]? = some a →
    ∃ b, stacked[i * layer.length + k]? = some b ∧ IsCopy i a b

/-- Copies of a layer that are where they belong. Each is congruent to the layer. -/
structure IsPlacedStack (l : Layers ℝ) (axis : Axis) (layer stacked : List (Atom ℝ)) : Prop where
  placed : ∀ i angle, l.angles[i]? = some angle → ∀ k a, layer[k]? = some a →
    ∃ b, stacked[i * layer.length + k]? = some b ∧ l.IsPlaced axis i angle a b
  congruent : ∀ i < l.count, ∀ {k k' a a' b b'}, layer[k]? = some a → layer[k']? = some a' →
    stacked[i * layer.length + k]? = some b → stacked[i * layer.length + k']? = some b' →
      b.position.dist b'.position = a.position.dist a'.position

theorem isStackOf_stack {α : Type} [Scalar α] (l : Layers α) (axis : Axis)
    (layer : List (Atom α)) : IsStackOf l.count layer (l.stack axis layer) where
  length_eq := l.length_stack axis layer
  copies i hi k a ha := by
    obtain ⟨angle, hangle⟩ := l.exists_angle hi
    exact ⟨_, l.getElem?_stack axis hangle ha, l.isCopy_place axis i angle a⟩

theorem isPlacedStack_stack (l : Layers ℝ) (axis : Axis) (layer : List (Atom ℝ)) :
    IsPlacedStack l axis layer (l.stack axis layer) where
  placed i angle hangle k a ha :=
    ⟨_, l.getElem?_stack axis hangle ha, l.isPlaced_place axis i angle a⟩
  congruent i hi k k' a a' b b' ha ha' hb hb' := by
    obtain ⟨angle, hangle⟩ := l.exists_angle hi
    rw [l.getElem?_stack axis hangle ha] at hb
    rw [l.getElem?_stack axis hangle ha'] at hb'
    obtain rfl := Option.some.inj hb
    obtain rfl := Option.some.inj hb'
    exact (l.isPlaced_place axis i angle a).dist_eq (l.isPlaced_place axis i angle a')

/-- **A stack is made of copies of its layer.** However it was built, it has an angle for each of its
`n` layers, and each layer is a copy of the one that is given, atom by atom. In exact arithmetic the
copies are raised, the odd ones shifted, and all turned by their angles, so that each is congruent
to the layer. -/
theorem stack_places_layers (n : Nat) (axis : Axis) :
    (∀ {α : Type} [Scalar α] {l : Layers α}, l.IsBuilt n → l.count = n ∧ l.angles.length = n ∧
      ∀ layer, IsStackOf n layer (l.stack axis layer)) ∧
    ∀ {l : Layers ℝ}, l.IsBuilt n → ∀ layer, IsPlacedStack l axis layer (l.stack axis layer) := by
  refine ⟨fun {α} _ l h => ⟨h.count_eq, h.length_angles, fun layer => ?_⟩, fun {l} _ layer => ?_⟩
  · rw [← h.count_eq]
    exact l.isStackOf_stack axis layer
  · exact l.isPlacedStack_stack axis layer

/-- Some layers with the odd ones shifted along y, and each turned by half a turn more than the one
before. -/
noncomputable def halfTurned (plain : Layers ℝ) : Layers ℝ :=
  (plain.withShift ⟨0, 1, 0⟩).withIncrement Real.pi false

theorem stack_places_layers_halfTurned : ∃ plain : Layers ℝ, ofCount 2 1 = .ok plain ∧
    (halfTurned plain).IsBuilt 2 ∧
      ∃ b, ((halfTurned plain).stack .z [Atom.placed "C" ⟨1, 0, 0⟩])[1]? = some b ∧
        b.molecule = 2 ∧ b.position = ⟨-1, -1, 1⟩ := by
  have hplain : ofCount 2 1 = .ok (⟨2, 1, 0, [0, 0], two_pos, rfl⟩ : Layers ℝ) :=
    ofCount_eq_ok_iff.2 ⟨zero_le_one, rfl, rfl, rfl, rfl⟩
  have hbuilt := IsBuilt.withIncrement Real.pi false (.withShift ⟨0, 1, 0⟩ (.ofCount hplain))
  obtain ⟨b, hb, hplaced⟩ := ((stack_places_layers 2 .z).2 hbuilt
    [Atom.placed "C" ⟨1, 0, 0⟩]).placed 1 (Scalar.ofNat 1 * Real.pi) rfl 0 _ rfl
  have hmoved : (Atom.placed "C" ⟨1, 0, 0⟩ : Atom ℝ).position +
      (halfTurned ⟨2, 1, 0, [0, 0], two_pos, rfl⟩).offset .z 1 = ⟨1, 1, 1⟩ := by
    change Vec3.mk (1 + (0 * (((1 : Nat) : ℝ) * 1) + 0)) (0 + (0 * (((1 : Nat) : ℝ) * 1) + 1))
      (0 + (1 * (((1 : Nat) : ℝ) * 1) + 0)) = _
    norm_num
  refine ⟨_, hplain, hbuilt, b, hb, congrArg (·.2.2.2.2.2.1) hplaced.identity, ?_⟩
  rw [hplaced.position, Scalar.ofNat_real, Nat.cast_one, one_mul]
  exact (congrArg _ hmoved).trans (by simp [Mat3.turnZ, Mat3.mulVec, Vec3.dot])

end Layers

end Honeycomb
