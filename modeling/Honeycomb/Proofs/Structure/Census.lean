import Mathlib
import Honeycomb.Proofs.Chirality.Screw
import Honeycomb.Proofs.Collection.TypeTable
import Honeycomb.Proofs.Crystal.Repeats
import Honeycomb.Proofs.Lists
import Honeycomb.Proofs.Outcome
import Honeycomb.Proofs.Structure.Making

/-!
# The atoms of a made structure

* `Design.repeats`, `Design.basisSize`, `Design.layerCount`, `Design.layerSize` — the numbers that a
  design gives.
* `signedCount_eq`, `ScalingMatrix.length_places_of_diagonal`, `Design.length_basis` — no count is
  lost on the way to the supercell, so that `Design.length_supercell` — it has the size of one layer.
* `Layers.molecules_stack` — the molecules of a stack come in blocks.
* `ids_numbered`, `types_numbered` — what numbering the atoms gives.

Principal results: `Generator.IsMadeOf.isAsDesigned` — a structure that was made has the atoms and the
layers that its design asks for; `Generator.isNumbered_of_isMadeOf` — if it was numbered, then from
one on and by the elements.
-/

set_option autoImplicit false

namespace Honeycomb

/-- A count of 32 bits that stays positive as a signed one stays the same. -/
theorem signedCount_eq {n : Nat} (h : n < 2 ^ 32) (hpos : 1 ≤ signedCount n) :
    signedCount n = n := by
  have hmod : (n : Int) % (2 ^ 32 : Nat) = n := Int.emod_eq_of_lt (by omega) (by omega)
  unfold signedCount at hpos ⊢
  rw [Nat.pow_eq, Int.bmod_def, hmod] at hpos ⊢
  by_cases hlow : (n : Int) < ((2 ^ 32 : Nat) + 1) / 2
  · rw [if_pos hlow]
  · rw [if_neg hlow] at hpos
    omega

namespace ScalingMatrix

variable {α : Type} {n1 n2 n3 : Int} {s : ScalingMatrix}

/-- **There are as many places as unit cells** when a cell is repeated along its vectors. -/
theorem length_places_of_diagonal [Scalar α] {places : List (Vec3 Int)}
    (h : (diagonal n1 n2 n3 : Except (Error α) _) = .ok s)
    (hplaces : (s.places : Except (Error α) _) = .ok places) :
    (places.length : Int) = n1 * n2 * n3 := by
  obtain ⟨hdiagonal, hforward⟩ := isForward_of_diagonal h
  have htransversal : s.rows.IsTransversal places := by
    rw [places_isTransversal_iff hplaces, hdiagonal]
    exact ⟨fun _ => hforward, fun h => nomatch h⟩
  rw [htransversal.length_eq s.det_pos, intDet_of_isDiagonal hdiagonal, (rows_of_diagonal h).2]

end ScalingMatrix

namespace Design

/-! ## The numbers of a design -/

section

variable {α : Type} [Scalar α]

/-- How often the unit cell is repeated along each of its vectors. -/
def repeats : Design α → Vec3 Nat
  | sheet g => ⟨g.repeats.1, g.repeats.2, 1⟩
  | tube t => ⟨1, 1, t.cells⟩
  | flat t => ⟨t.cellsAround, 1, t.cellsAlong⟩

/-- The number of atoms in the unit cell. -/
def basisSize : Design α → Nat
  | sheet g =>
    match g.cell with
    | .conventional _ _ => 4
    | .primitive _ => 2
  | tube t => t.chirality.atomCount
  | flat t => t.chirality.atomCount

/-- The number of layers. A tube counts as one. -/
def layerCount : Design α → Nat
  | sheet g => g.layers.count
  | tube _ => 1
  | flat t => t.layers.count

/-- The number of atoms in a layer. -/
def layerSize (design : Design α) : Nat :=
  design.basisSize * (design.repeats.x * design.repeats.y * design.repeats.z)

/-- Repeat counts that a design gives are words of 32 bits. A sheet gives none. -/
def HasWordCounts : Design α → Prop
  | sheet _ => True
  | tube t => t.cells < 2 ^ 32
  | flat t => t.cellsAround < 2 ^ 32 ∧ t.cellsAlong < 2 ^ 32

theorem scaling_eq (design : Design α) :
    design.scaling = ScalingMatrix.diagonal (signedCount design.repeats.x)
      (signedCount design.repeats.y) (signedCount design.repeats.z) := by
  have hone : signedCount 1 = 1 := by decide
  cases design with
  | sheet g => simp only [scaling, Graphene.scaling, repeats, hone]
  | tube t => simp only [scaling, Tube.scaling, repeats, hone]
  | flat t => simp only [scaling, FlatTube.scaling, repeats, hone]

theorem length_basis {design : Design α} {cell : UnitCell α} (h : design.unitCell = .ok cell) :
    cell.basis.length = design.basisSize := by
  cases design with
  | sheet g =>
    obtain ⟨lattice, -, rfl⟩ := map_eq_ok_iff.1 h
    simp only [basisSize, Graphene.sites, List.length_map]
    cases g.cell with
    | conventional armchair zigzag => rfl
    | primitive edge => rfl
  | tube t =>
    obtain ⟨lattice, -, rfl⟩ := map_eq_ok_iff.1 h
    simp only [rolledAtoms, List.length_map, length_screwSites]
    rfl
  | flat t =>
    obtain ⟨lattice, -, rfl⟩ := map_eq_ok_iff.1 h
    simp only [flatAtoms, List.length_map, length_screwSites]
    rfl

end

/-- The counts that cover the edges of a sheet are words, too. -/
theorem repeats_lt_of_sheet (g : Graphene Double) : g.repeats.1 < 2 ^ 32 ∧ g.repeats.2 < 2 ^ 32 := by
  unfold Graphene.repeats
  split
  · exact ⟨UInt32.toNat_lt _, UInt32.toNat_lt _⟩
  · exact ⟨UInt32.toNat_lt _, UInt32.toNat_lt _⟩

theorem repeats_lt {design : Design Double} (h : design.HasWordCounts) :
    design.repeats.x < 2 ^ 32 ∧ design.repeats.y < 2 ^ 32 ∧ design.repeats.z < 2 ^ 32 := by
  have hone : 1 < 2 ^ 32 := by norm_num
  cases design with
  | sheet g => exact ⟨(repeats_lt_of_sheet g).1, (repeats_lt_of_sheet g).2, hone⟩
  | tube t => exact ⟨hone, hone, h⟩
  | flat t => exact ⟨h.1, hone, h.2⟩

/-- **A supercell holds one layer.** No repeat count has turned into another one on the way. -/
theorem length_supercell {design : Design Double} {cell : UnitCell Double}
    {super : Supercell Double} (hcounts : design.HasWordCounts) (hcell : design.unitCell = .ok cell)
    (hsuper : Generator.supercell design cell = .ok super) :
    super.atoms.length = design.layerSize := by
  obtain ⟨s, hscaling, htile⟩ := bind_eq_ok_iff.1 hsuper
  obtain ⟨lattice, -, hrest⟩ := bind_eq_ok_iff.1 htile
  obtain ⟨places, hplaces, hmade⟩ := bind_eq_ok_iff.1 hrest
  cases hmade
  rw [scaling_eq] at hscaling
  -- a count that turned negative on the way would have been refused
  obtain ⟨⟨hx, hy, hz⟩, -⟩ := ScalingMatrix.rows_of_diagonal hscaling
  obtain ⟨hx', hy', hz'⟩ := repeats_lt hcounts
  have hlength := ScalingMatrix.length_places_of_diagonal hscaling hplaces
  rw [signedCount_eq hx' hx, signedCount_eq hy' hy, signedCount_eq hz' hz] at hlength
  have hcount : places.length = design.repeats.x * design.repeats.y * design.repeats.z := by
    exact_mod_cast hlength
  rw [UnitCell.length_copies, length_basis hcell, hcount, layerSize, mul_comm]

end Design

/-! ## Molecules -/

section

variable {α : Type} [Scalar α]

theorem Layers.molecule_place (l : Layers α) (axis : Axis) (i : Nat) (angle : α) (a : Atom α) :
    (l.place axis i angle a).molecule = i + 1 := by
  unfold place
  dsimp only
  split
  · rfl
  · rfl

/-- The molecules of a stack come in blocks, one for each layer. -/
theorem Layers.molecules_stack (l : Layers α) (axis : Axis) (layer : List (Atom α)) :
    (l.stack axis layer).map (·.molecule) =
      (List.range l.count).flatMap fun i => List.replicate layer.length (i + 1) := by
  have hlayers : (l.angles.mapIdx fun i angle => layer.map (l.place axis i angle)).map
      (List.map (·.molecule)) =
        (List.range l.count).map fun i => List.replicate layer.length (i + 1) := by
    apply List.ext_getElem
    · simp [l.length_angles]
    · intro i hi hi'
      simp [molecule_place, Function.comp_def]
  rw [stack, List.map_flatten, hlayers, List.flatMap_def]

theorem length_centered (atoms : List (Atom α)) : (centered atoms).length = atoms.length := by
  simp [centered]

theorem Design.molecules_arranged (design : Design α) (tiled : List (Atom α)) :
    (design.arranged tiled).map (·.molecule) =
      (List.range design.layerCount).flatMap fun i => List.replicate tiled.length (i + 1) := by
  cases design with
  | sheet g =>
    simp only [arranged, stack?, layerCount, Layers.molecules_stack, length_centered]
  | tube t => simp [arranged, stack?, layerCount, Function.comp_def]
  | flat t =>
    simp only [arranged, stack?, layerCount, Layers.molecules_stack, length_centered]

end

/-! ## Ids, types and the type table -/

section

variable {α : Type}

/-- Numbering the atoms leaves what is neither numbered nor found by a neighbor search. -/
theorem map_numbered {β : Type} {view : Atom α → β}
    (hid : ∀ (a : Atom α) id, view { a.forgetNeighbors with id } = view a)
    (htype : ∀ (a : Atom α) t, view { a with type := t } = view a) (atoms : List (Atom α)) :
    (numbered atoms).map view = atoms.map view := by
  rw [numbered, map_typedByElement htype]
  exact map_mapIdx_of_forall (fun i a => hid a (1 + i)) atoms

theorem ids_numbered (atoms : List (Atom α)) :
    (numbered atoms).map (·.id) = List.range' 1 atoms.length := by
  rw [numbered, map_typedByElement fun _ _ => rfl]
  apply List.ext_getElem
  · simp
  · intro i hi hi'
    simp

/-- The types number the elements by first appearance. -/
theorem types_numbered (atoms : List (Atom α)) :
    (numbered atoms).map (·.type) =
      atoms.map fun a => (atoms.map (·.element)).eraseDups.idxOf a.element + 1 := by
  have helements : (atoms.mapIdx fun i a => { a.forgetNeighbors with id := 1 + i }).map (·.element) =
      atoms.map (·.element) := by
    apply map_mapIdx_of_forall
    intro i a
    rfl
  rw [numbered, types_typedByElement, helements, firstAppearance_eq, List.map_map]
  rfl

end

namespace Generator

/-! ## The whole structure -/

section

variable {α : Type} [Scalar α]

/-- A structure that has the atoms its design asks for. Those of layer `i` have the molecule id
`i + 1`, and the layers in order are all atoms. -/
structure IsAsDesigned (design : Design α) (g : Generator α) : Prop where
  count : g.atoms.size = design.layerSize * design.layerCount
  molecules : g.atoms.atoms.map (·.molecule) =
    (List.range design.layerCount).flatMap fun i => List.replicate design.layerSize (i + 1)
  layerSizes : ∀ i < design.layerCount, (g.layer i).length = design.layerSize
  layers : (List.range design.layerCount).flatMap g.layer = g.atoms.atoms

/-- Atoms that are numbered: ids from one on, types by the order in which the elements appear, and a
table with mass and charge of the first atom of each element. -/
structure IsNumbered (g : Generator α) : Prop where
  ids : g.atoms.ids = List.range' 1 g.atoms.size
  types : g.atoms.types = g.atoms.elements.map fun e => g.atoms.elements.eraseDups.idxOf e + 1
  table : ∃ table, g.atoms.typeTable = some table ∧
    ∀ element : String, table[element]? = firstRecord? g.atoms.atoms element

/-- **Layers that are told apart by their molecules** make up the structure. -/
theorem isAsDesigned_of_molecules {design : Design α} {g : Generator α}
    (h : g.atoms.atoms.map (·.molecule) =
      (List.range design.layerCount).flatMap fun i => List.replicate design.layerSize (i + 1)) :
    IsAsDesigned design g := by
  obtain ⟨hlayers, hsizes⟩ := flatMap_filter_of_blocks h
  refine ⟨?_, h, hsizes, hlayers⟩
  have hlength := congrArg List.length h
  simpa [Collection.size, List.length_flatMap, mul_comm] using hlength

theorem isNumbered_of_isMadeOf {design : Design α} {super : Supercell α} {g : Generator α}
    (h : IsMadeOf design super true g) : IsNumbered g := by
  have hatoms : g.atoms.atoms = numbered (design.arranged super.atoms) := h.atoms_eq
  refine ⟨?_, ?_, ?_⟩
  · have hlength : (numbered (design.arranged super.atoms)).length =
        (design.arranged super.atoms).length := by
      simpa using congrArg List.length (ids_numbered (design.arranged super.atoms))
    rw [Collection.ids, Collection.size, hatoms, ids_numbered, hlength]
  · have helements : (numbered (design.arranged super.atoms)).map (·.element) =
        (design.arranged super.atoms).map (·.element) :=
      map_numbered (fun _ _ => rfl) (fun _ _ => rfl) _
    rw [Collection.types, Collection.elements, hatoms, types_numbered, helements, List.map_map]
    rfl
  · refine ⟨_, h.table_eq, fun element => ?_⟩
    rw [TypeTable.getElem?_ofAtoms, h.atoms_eq]

end

/-- **What is made is as designed**, numbered or not. -/
theorem IsMadeOf.isAsDesigned {design : Design Double} {cell : UnitCell Double}
    {super : Supercell Double} {g : Generator Double} {finalized : Bool}
    (hcounts : design.HasWordCounts) (hcell : design.unitCell = .ok cell)
    (hsuper : supercell design cell = .ok super) (h : IsMadeOf design super finalized g) :
    IsAsDesigned design g := by
  apply isAsDesigned_of_molecules
  rw [← Design.length_supercell hcounts hcell hsuper, ← Design.molecules_arranged]
  rw [h.atoms_eq]
  cases finalized with
  | false => rfl
  | true => exact map_numbered (fun _ _ => rfl) (fun _ _ => rfl) _

end Generator

end Honeycomb
