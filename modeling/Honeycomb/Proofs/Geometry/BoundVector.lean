import Honeycomb.Geometry.BoundVector
import Honeycomb.Proofs.Geometry.PiOrbital

/-!
# Vectors and their two ends

A bound vector has three entries of which any two give the third. In exact arithmetic they never
come apart, whatever is done to the vector.

* `BoundVector.IsAnchored` — the components lead from the start to the end;
  `BoundVector.isAnchored_withStart` — they do in every vector that is laid off from its start.
* `BoundVector.Origin` — the ways to make a vector, and `BoundVector.Change` — what can be done to
  it; `BoundVector.applyAll` — one change after another.
* `BoundVector.Change.Effect` — which end a change keeps, and what it makes of the rest.

Principal result: `BoundVector.ends_follow_components`.
-/

set_option autoImplicit false

namespace Honeycomb

namespace Vec3

theorem along_map {α β : Type} (f : α → β) (v : Vec3 α) (axis : Axis) :
    (v.map f).along axis = f (v.along axis) := by
  cases axis <;> rfl

/-- The direction of a vector, as many times as it is long, is the vector. -/
theorem div_norm_mul_norm {v : Vec3 ℝ} (h : v.norm ≠ 0) : v / v.norm * v.norm = v := by
  obtain ⟨x, y, z⟩ := v
  rw [div_mk, mul_mk]
  simp only [div_mul_cancel₀ _ h]

end Vec3

namespace BoundVector

/-- The components lead from the start to the end. -/
def IsAnchored (v : BoundVector ℝ) : Prop :=
  v.components = v.stop - v.start

/-- A way to make a vector. -/
inductive Origin where
  | numbers (x y z : ℝ)
  | components (c : Vec3 ℝ)
  | withStart (c start : Vec3 ℝ)
  | between (start stop : Vec3 ℝ)

/-- The vector that is made. -/
noncomputable def Origin.make : Origin → BoundVector ℝ
  | numbers x y z => ofComponents ⟨x, y, z⟩
  | components c => ofComponents c
  | withStart c start => BoundVector.withStart c start
  | between start stop => BoundVector.between start stop

/-- What can be done to a vector. The other operand of a sum, a difference or a cross product is any
vector, however it came about. -/
inductive Change where
  | setComponent (axis : Axis) (a : ℝ)
  | setComponents (c : Vec3 ℝ)
  | setStop (p : Vec3 ℝ)
  | setStart (p : Vec3 ℝ)
  | rezero (tolerance : ℝ)
  | unit
  | add (w : BoundVector ℝ)
  | sub (w : BoundVector ℝ)
  | neg
  | scale (a : ℝ)
  | cross (w : BoundVector ℝ)

namespace Change

/-- The changed vector. -/
noncomputable def apply (v : BoundVector ℝ) : Change → BoundVector ℝ
  | setComponent axis a => v.setComponent axis a
  | setComponents c => v.setComponents c
  | setStop p => v.setStop p
  | setStart p => v.setStart p
  | rezero tolerance => v.rezero tolerance
  | unit => v.unit
  | add w => v.add w
  | sub w => v.sub w
  | neg => v.neg
  | scale a => v.scale a
  | cross w => v.cross w

/-- What a change makes of a vector: which end stays where it is, and what becomes of the components
or of the other end. -/
def Effect (v v' : BoundVector ℝ) : Change → Prop
  | setComponent axis a => v'.start = v.start ∧
      ∀ other, v'.components.along other = if other = axis then a else v.components.along other
  | setComponents c => v'.start = v.start ∧ v'.components = c
  | setStop p => v'.start = v.start ∧ v'.stop = p
  | setStart p => v'.start = p ∧ v'.stop = v.stop
  | rezero tolerance => v'.start = v.start ∧ ∀ axis, v'.components.along axis =
      if |v.components.along axis| ≤ tolerance then 0 else v.components.along axis
  | unit => (v.components = 0 → v' = zero) ∧ (v.components ≠ 0 →
      v'.start = v.start ∧ v'.norm = 1 ∧ v'.components * v.norm = v.components)
  | add w => v'.start = v.start ∧ v'.components = v.components + w.components
  | sub w => v'.start = v.start ∧ v'.components = v.components - w.components
  | neg => v'.start = v.start ∧ v'.components = -v.components
  | scale a => v'.start = v.start ∧ v'.components = v.components * a
  | cross w => v'.start = 0 ∧ v'.components = v.components.cross w.components

end Change

/-- The vector after one change after another. -/
noncomputable def applyAll (v : BoundVector ℝ) (changes : List Change) : BoundVector ℝ :=
  changes.foldl Change.apply v

/-! ## One step -/

/-- A vector that is laid off from its start is anchored there. -/
theorem isAnchored_withStart (c start : Vec3 ℝ) : (withStart c start).IsAnchored :=
  (add_sub_cancel_left start c).symm

theorem Origin.isAnchored_make (origin : Origin) : origin.make.IsAnchored := by
  cases origin with
  | numbers x y z => exact isAnchored_withStart _ _
  | components c => exact isAnchored_withStart _ _
  | withStart c start => exact isAnchored_withStart _ _
  | between start stop => rfl

theorem unit_of_eq_zero {v : BoundVector ℝ} (h : v.components = 0) : v.unit = zero := by
  have hnorm : v.norm = 0 := Vec3.norm_eq_zero_iff.2 h
  simp [unit, hnorm]

theorem unit_of_ne_zero {v : BoundVector ℝ} (h : v.components ≠ 0) :
    v.unit = withStart (v.components / v.norm) v.start := by
  have hnorm : v.norm ≠ 0 := fun hzero => h (Vec3.norm_eq_zero_iff.1 hzero)
  simp [unit, hnorm]

/-- **Every change leaves an anchored vector.** Where the components are changed the end is laid off
anew, and where the start is moved the components are measured anew. -/
theorem Change.isAnchored_apply (v : BoundVector ℝ) (change : Change) :
    (change.apply v).IsAnchored := by
  cases change with
  | setStart p => rfl
  | unit =>
    by_cases h : v.components = 0
    · rw [apply, unit_of_eq_zero h]
      exact isAnchored_withStart _ _
    · rw [apply, unit_of_ne_zero h]
      exact isAnchored_withStart _ _
  | _ => exact isAnchored_withStart _ _

/-- **Every change has its effect**, also on a vector that is not anchored. -/
theorem Change.effect_apply (v : BoundVector ℝ) (change : Change) :
    change.Effect v (change.apply v) := by
  cases change with
  | setComponent axis a => exact ⟨rfl, fun other => Vec3.along_replace v.components axis other a⟩
  | setStop p => exact ⟨rfl, add_sub_cancel v.start p⟩
  | rezero tolerance =>
    refine ⟨rfl, fun axis => ?_⟩
    refine (Vec3.along_map _ v.components axis).trans ?_
    -- the two sides decide the comparison in different ways
    by_cases h : |v.components.along axis| ≤ tolerance
    · simp [h]
    · simp [h]
  | unit =>
    refine ⟨unit_of_eq_zero, fun h => ?_⟩
    have hnorm : v.components.norm ≠ 0 := fun hzero => h (Vec3.norm_eq_zero_iff.1 hzero)
    rw [apply, unit_of_ne_zero h]
    exact ⟨rfl, Vec3.norm_div_norm hnorm, Vec3.div_norm_mul_norm hnorm⟩
  | _ => exact ⟨rfl, rfl⟩

/-! ## Many steps -/

/-- What is anchored at first stays so. -/
theorem IsAnchored.applyAll {v : BoundVector ℝ} (h : v.IsAnchored) (changes : List Change) :
    (v.applyAll changes).IsAnchored := by
  induction changes generalizing v with
  | nil => exact h
  | cons change rest ih => exact ih (change.isAnchored_apply v)

/-- **The ends follow the components.** However a vector was made, and whatever has been done to it
since, its components lead from its start to its end in exact arithmetic; and whatever is done next
keeps the end that it is to keep. -/
theorem ends_follow_components (origin : Origin) (changes : List Change) (next : Change) :
    let v := origin.make.applyAll changes
    v.IsAnchored ∧ (next.apply v).IsAnchored ∧ next.Effect v (next.apply v) := by
  intro v
  exact ⟨origin.isAnchored_make.applyAll changes, next.isAnchored_apply v, next.effect_apply v⟩

end BoundVector

end Honeycomb
