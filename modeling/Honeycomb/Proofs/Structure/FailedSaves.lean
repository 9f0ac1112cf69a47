import Honeycomb.Proofs.Structure.Workshop

/-!
# Saves that fail

* `Generator.IsLeftBy` — a generator after a save, whatever came of the file.

Principal result: `Generator.isLeftBy_of_failed_save`. Atoms that are to be centered are moved
before anything can fail; `Workshop.failed_save_moves_atoms` shows it.
-/

set_option autoImplicit false

namespace Honeycomb

namespace Generator

/-- A generator after a save, whatever came of the file: the design, the lattice, the stage and the
shift are what they were, and so are the atoms, unless they were to be centered. Then each has been
shifted by the way from the centroid to the origin, and what was derived from the atoms dropped. -/
structure IsLeftBy (request : SaveRequest) (g g' : Generator Double) : Prop where
  design_eq : g'.design = g.design
  lattice_eq : g'.lattice = g.lattice
  stage_eq : g'.stage = g.stage
  sheetShift_eq : g'.sheetShift = g.sheetShift
  params_eq : g'.atoms.params = g.atoms.params
  kept : request.center = false → g'.atoms = g.atoms
  centered : request.center = true →
    g'.atoms.typeTable = none ∧
      g'.atoms.atoms = g.atoms.atoms.map fun a =>
        { a.forgetNeighbors with position := a.position + -g.atoms.centroid }

variable {σ : Type} (files : FileAccess (StateM σ))

theorem isLeftBy_readied (g : Generator Double) (request : SaveRequest) (r : Revision) :
    IsLeftBy request g
      { g with
        atoms := ((if request.center then g.atoms.center else pure g.atoms : Edit _) r).1 } := by
  cases hcenter : request.center with
  | false =>
    refine ⟨rfl, rfl, rfl, rfl, rfl, fun _ => rfl, ?_⟩
    intro h
    cases hcenter.symm.trans h
  | true =>
    refine ⟨rfl, rfl, rfl, rfl, rfl, ?_, fun _ => ⟨rfl, rfl⟩⟩
    intro h
    cases hcenter.symm.trans h

/-- **A save that fails after the structure was made leaves it as it was**, up to the centering that
was asked for. It fails because the format is not supported, and then no file has been touched, or
because the file cannot be written. -/
theorem isLeftBy_of_failed_save {g g' : Generator Double} {request : SaveRequest}
    {r r' : Revision} {s s' : σ} {e : Error Double} (hmade : g.stage ≠ .uninitialized)
    (hfailed : Id.run (((save files g request).run r).run s) = (((.error e, g'), r'), s')) :
    IsLeftBy request g g' ∧ (((∃ text, e = .unsupportedFormat text) ∧ s' = s) ∨ e = .file) := by
  rw [run_save, if_neg hmade, run_saveMade] at hfailed
  obtain ⟨hleft, hfiles⟩ := Prod.mk.inj hfailed
  obtain ⟨houtcome, hgenerator⟩ := Prod.mk.inj (Prod.mk.inj hleft).1
  rw [← hgenerator]
  refine ⟨isLeftBy_readied g request r, ?_⟩
  exact error_of_writeStructure files (Prod.ext (map_eq_error_iff.1 houtcome) hfiles)

end Generator

namespace Workshop

open Generator (SaveRequest IsLeftBy)

/-- A small unrolled tube in two layers. -/
def twoFlatTubes : Design Double :=
  .flat { FlatTube.ofChirality ⟨1, 0, by decide⟩ with
    layers := ⟨2, graphiteSpacing, 0, [0, 0], by decide, rfl⟩ }

/-- A workshop in which they have been made. -/
def withFlatTubes : Workshop :=
  ((opened twoFlatTubes {} 0).make true).2

/-- Centered, as a dump file, which nothing writes. -/
def asDump : SaveRequest :=
  { format := some .dump, center := true }

theorem stage_withFlatTubes : withFlatTubes.generator.stage = .finalized := by
  decide +kernel

theorem withFlatTubes_isMade : withFlatTubes.generator.stage ≠ .uninitialized := by
  rw [stage_withFlatTubes]
  decide

/-- A save as a dump file fails where something has been made, and the atoms have been centered. -/
theorem save_asDump {w : Workshop} (hmade : w.generator.stage ≠ .uninitialized) :
    w.save asDump = (.error (.unsupportedFormat "dump"), w.readied asDump) := by
  rw [save_eq, if_neg hmade, write_eq]
  rfl

theorem isLeftBy_save_asDump :
    withFlatTubes.generator.stage ≠ .uninitialized ∧
      (withFlatTubes.save asDump).1 = .error (.unsupportedFormat "dump") ∧
      IsLeftBy asDump withFlatTubes.generator (withFlatTubes.save asDump).2.generator := by
  have hfailed : (withFlatTubes.save asDump).1 = .error (.unsupportedFormat "dump") := by
    rw [save_asDump withFlatTubes_isMade]
  have hrun := withFlatTubes.run_save asDump
  rw [hfailed] at hrun
  obtain ⟨hleft, -⟩ :=
    Generator.isLeftBy_of_failed_save FileTree.access withFlatTubes_isMade hrun
  exact ⟨withFlatTubes_isMade, hfailed, hleft⟩

theorem failed_save_moves_atoms :
    withFlatTubes.generator.stage = .finalized ∧
      (withFlatTubes.save asDump).1 = .error (.unsupportedFormat "dump") ∧
      (withFlatTubes.save asDump).2.generator.atoms.atoms ≠
        withFlatTubes.generator.atoms.atoms := by
  rw [save_asDump withFlatTubes_isMade]
  refine ⟨stage_withFlatTubes, rfl, ?_⟩
  intro h
  have hheights := congrArg (List.map fun a => a.position.y.bits) h
  revert hheights
  decide +kernel

end Workshop

end Honeycomb
