import Honeycomb.Structure.Generator

/-!
# Structures made from designs

* `Design.arranged`, `numbered`, `Design.made` — the atoms of a structure, from those of its
  supercell.
* `Generator.IsEmptied`, `Generator.IsMadeOf` — what a generator is left with when making the
  structure fails, and when it succeeds. `Generator.IsSameStructure` — what two generators share then.

Principal results: `Generator.generate_cases` — `generate` does one of three things, and the design
alone says which, whatever the generator held before; `Generator.outcome_generate` — it succeeds
just when the supercell can be built; `Generator.run_save` — what a save does, in files of any kind.
-/

set_option autoImplicit false

namespace Honeycomb

variable {α : Type} [Scalar α]

/-! ## What is made of a supercell -/

/-- Atoms with their centroid moved to the origin. -/
def centered (atoms : List (Atom α)) : List (Atom α) :=
  let centroid := (⟨atoms, {}, none, 0⟩ : Collection α).centroid
  atoms.map fun a => { a.forgetNeighbors with position := a.position + -centroid }

/-- Atoms with ids from one on and types by their elements. -/
def numbered (atoms : List (Atom α)) : List (Atom α) :=
  typedByElement (atoms.mapIdx fun i a => { a.forgetNeighbors with id := 1 + i })

namespace Design

/-- The atoms that a design makes of those of its supercell. -/
def arranged (design : Design α) (tiled : List (Atom α)) : List (Atom α) :=
  match design.stack? with
  | none => tiled.map fun a => { a.forgetNeighbors with molecule := 1 }
  | some stack => stack.layers.stack stack.axis (centered tiled)

/-- The atoms of the structure, numbered if asked for. -/
def made (design : Design α) (finalized : Bool) (tiled : List (Atom α)) : List (Atom α) :=
  if finalized then numbered (design.arranged tiled) else design.arranged tiled

/-- How far the atoms are made before they are numbered. -/
def arrangedStage (design : Design α) : Stage :=
  match design.stack? with
  | none => .tiled
  | some stack => if 1 < stack.layers.count then .layersTransformed else .tiled

end Design

namespace Generator

/-- A generator that has dropped what was made. -/
structure IsEmptied (design : Design α) (stage : Stage) (g : Generator α) : Prop where
  design_eq : g.design = design
  atoms_eq : g.atoms.atoms = []
  lattice_eq : g.lattice = none
  stage_eq : g.stage = stage

/-- A generator with a structure that was made of a supercell, numbered or not. -/
structure IsMadeOf (design : Design α) (super : Supercell α) (finalized : Bool) (g : Generator α) :
    Prop where
  design_eq : g.design = design
  lattice_eq : g.lattice = some super.lattice
  params_eq : g.atoms.params = {}
  atoms_eq : g.atoms.atoms = design.made finalized super.atoms
  table_eq : g.atoms.typeTable =
    if finalized then some (.ofAtoms (design.made finalized super.atoms)) else none
  stage_eq : g.stage = if finalized then .finalized else design.arrangedStage

/-- Generators hold the same structure. Revisions do not count. -/
structure IsSameStructure (g g' : Generator α) : Prop where
  atoms_eq : g.atoms.atoms = g'.atoms.atoms
  params_eq : g.atoms.params = g'.atoms.params
  table_eq : g.atoms.typeTable = g'.atoms.typeTable
  lattice_eq : g.lattice = g'.lattice
  stage_eq : g.stage = g'.stage

variable {g g' : Generator α} {design : Design α} {super : Supercell α} {cell : UnitCell α} {e : Error α}

theorem isMadeOf_arrange (hdesign : g.design = design) (hlattice : g.lattice = some super.lattice)
    {tiled : Collection α} (hatoms : tiled.atoms = super.atoms) (hparams : tiled.params = {})
    (r : Revision) : IsMadeOf design super false (arrange g tiled r).1 := by
  subst hdesign
  -- the two ways to arrange the atoms differ in what they keep of the tiled collection
  have hmade : g.design.made false super.atoms = g.design.arranged tiled.atoms := by
    rw [hatoms]
    rfl
  unfold arrange
  cases hstack : g.design.stack? with
  | none =>
    refine ⟨rfl, hlattice, hparams, ?_, rfl, ?_⟩
    · rw [hmade, Design.arranged, hstack]
      rfl
    · rw [Design.arrangedStage, hstack]
      rfl
  | some stack =>
    refine ⟨rfl, hlattice, rfl, ?_, rfl, ?_⟩
    · rw [hmade, Design.arranged, hstack]
      rfl
    · rw [Design.arrangedStage, hstack]
      rfl

theorem IsMadeOf.finalize (h : IsMadeOf design super false g) :
    IsMadeOf design super true g.finalize := by
  have hmade : design.made true super.atoms = numbered g.atoms.atoms := by
    rw [h.atoms_eq]
    rfl
  refine ⟨h.design_eq, h.lattice_eq, h.params_eq, ?_, ?_, rfl⟩
  · rw [hmade]
    rfl
  · rw [hmade]
    rfl

/-- Two generators that made the same structure hold the same. -/
theorem IsMadeOf.isSameStructure {finalized : Bool} (h : IsMadeOf design super finalized g)
    (h' : IsMadeOf design super finalized g') : IsSameStructure g g' where
  atoms_eq := h.atoms_eq.trans h'.atoms_eq.symm
  params_eq := h.params_eq.trans h'.params_eq.symm
  table_eq := h.table_eq.trans h'.table_eq.symm
  lattice_eq := h.lattice_eq.trans h'.lattice_eq.symm
  stage_eq := h.stage_eq.trans h'.stage_eq.symm

/-- **A unit cell that cannot be built** leaves nothing. -/
theorem isEmptied_generate_of_unitCell (he : g.design.unitCell = .error e) (finalized : Bool)
    (r : Revision) : (g.generate finalized r).1.1 = .error e ∧
      IsEmptied g.design .uninitialized (g.generate finalized r).1.2 := by
  unfold generate
  rw [he]
  exact ⟨rfl, rfl, rfl, rfl, rfl⟩

/-- **A supercell that cannot be built** leaves no atoms and no lattice, but the stage of a unit cell
that was built. -/
theorem isEmptied_generate_of_supercell (hcell : g.design.unitCell = .ok cell)
    (he : supercell g.design cell = .error e) (finalized : Bool) (r : Revision) :
    (g.generate finalized r).1.1 = .error e ∧
      IsEmptied g.design .basisBuilt (g.generate finalized r).1.2 := by
  unfold generate
  rw [hcell]
  dsimp only
  rw [he]
  exact ⟨rfl, rfl, rfl, rfl, rfl⟩

/-- **A supercell that is built** is arranged, whatever the generator held before. -/
theorem isMadeOf_generate (hcell : g.design.unitCell = .ok cell)
    (hsuper : supercell g.design cell = .ok super) (finalized : Bool) (r : Revision) :
    (g.generate finalized r).1.1 = .ok () ∧
      IsMadeOf g.design super finalized (g.generate finalized r).1.2 := by
  unfold generate
  rw [hcell]
  dsimp only
  rw [hsuper]
  cases finalized with
  | false =>
    refine ⟨rfl, ?_⟩
    apply isMadeOf_arrange
    all_goals rfl
  | true =>
    refine ⟨rfl, ?_⟩
    apply IsMadeOf.finalize
    apply isMadeOf_arrange
    all_goals rfl

/-- **What `generate` does**: one of three things, and the design alone says which. -/
theorem generate_cases (design : Design α) :
    (∃ e, design.unitCell = .error e ∧ ∀ (g : Generator α) finalized r, g.design = design →
      (g.generate finalized r).1.1 = .error e ∧
        IsEmptied design .uninitialized (g.generate finalized r).1.2) ∨
    (∃ cell e, design.unitCell = .ok cell ∧ supercell design cell = .error e ∧
      ∀ (g : Generator α) finalized r, g.design = design →
        (g.generate finalized r).1.1 = .error e ∧
          IsEmptied design .basisBuilt (g.generate finalized r).1.2) ∨
    ∃ cell super, design.unitCell = .ok cell ∧ supercell design cell = .ok super ∧
      ∀ (g : Generator α) finalized r, g.design = design →
        (g.generate finalized r).1.1 = .ok () ∧
          IsMadeOf design super finalized (g.generate finalized r).1.2 := by
  cases hcell : design.unitCell with
  | error e =>
    refine .inl ⟨e, rfl, ?_⟩
    rintro g finalized r rfl
    exact isEmptied_generate_of_unitCell hcell finalized r
  | ok cell =>
    cases hsuper : supercell design cell with
    | error e =>
      refine .inr (.inl ⟨cell, e, rfl, hsuper, ?_⟩)
      rintro g finalized r rfl
      exact isEmptied_generate_of_supercell hcell hsuper finalized r
    | ok super =>
      refine .inr (.inr ⟨cell, super, rfl, hsuper, ?_⟩)
      rintro g finalized r rfl
      exact isMadeOf_generate hcell hsuper finalized r

/-- **A structure is made** just when its supercell can be built. -/
theorem outcome_generate (g : Generator α) (finalized : Bool) (r : Revision) :
    (g.generate finalized r).1.1 =
      (g.design.unitCell >>= supercell g.design).map fun _ => () := by
  obtain ⟨e, hcell, hmade⟩ | ⟨cell, e, hcell, hsuper, hmade⟩ | ⟨cell, super, hcell, hsuper, hmade⟩ :=
    generate_cases g.design
  · rw [(hmade g finalized r rfl).1, hcell]
    rfl
  · have hbind : g.design.unitCell >>= supercell g.design = .error e := by
      rw [hcell]
      exact hsuper
    rw [(hmade g finalized r rfl).1, hbind]
    rfl
  · have hbind : g.design.unitCell >>= supercell g.design = .ok super := by
      rw [hcell]
      exact hsuper
    rw [(hmade g finalized r rfl).1, hbind]
    rfl

theorem design_generate (g : Generator α) (finalized : Bool) (r : Revision) :
    (g.generate finalized r).1.2.design = g.design := by
  obtain ⟨e, -, hmade⟩ | ⟨cell, e, -, -, hmade⟩ | ⟨cell, super, -, -, hmade⟩ :=
    generate_cases g.design
  · exact (hmade g finalized r rfl).2.design_eq
  · exact (hmade g finalized r rfl).2.design_eq
  · exact (hmade g finalized r rfl).2.design_eq

/-! ## Saving -/

variable {σ : Type} (files : FileAccess (StateM σ))

/-- A structure that has been made is written after it was centered, if that is asked for. -/
theorem run_saveMade (g : Generator Double) (request : SaveRequest) (r : Revision) (s : σ) :
    Id.run (((saveMade files g request).run r).run s) =
      let path :=
        resolveOutput request.name g.design.fileStem request.directory request.format
      let readied := (if request.center then g.atoms.center else pure g.atoms : Edit _) r
      let written := Id.run ((writeStructure files path readied.1.atoms request.format
        (request.comment.getD g.design.description)).run s)
      (((written.1.map fun _ => path, { g with atoms := readied.1 }), readied.2), written.2) := by
  unfold saveMade
  cases request.center with
  | false => rfl
  | true => rfl

/-- A save makes the structure first if nothing was made yet, and touches no file where that
fails. -/
theorem run_save (g : Generator Double) (request : SaveRequest) (r : Revision) (s : σ) :
    Id.run (((save files g request).run r).run s) =
      if g.stage = .uninitialized then
        match g.generate true r with
        | ((.error e, g'), r') => (((.error e, g'), r'), s)
        | ((.ok _, g'), r') => Id.run (((saveMade files g' request).run r').run s)
      else Id.run (((saveMade files g request).run r).run s) := by
  unfold save
  by_cases hstage : g.stage = .uninitialized
  · rw [if_pos hstage, if_pos hstage]
    -- the attempt draws revisions only, so that the files are as they were when it is over
    have hlift : (lift (g.generate true) : StateT Revision (StateM σ) _) r s =
        (g.generate true r, s) := rfl
    rcases hmade : g.generate true r with ⟨⟨outcome, g'⟩, r'⟩
    rw [hmade] at hlift
    simp only [StateT.run, bind, StateT.bind, hlift]
    cases outcome with
    | error e => rfl
    | ok u => rfl
  · rw [if_neg hstage, if_neg hstage]

end Generator

end Honeycomb
