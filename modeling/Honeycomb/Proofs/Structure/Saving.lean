import Mathlib
import Honeycomb.Proofs.File.Access
import Honeycomb.Proofs.Structure.Workshop

/-!
# What is saved

* `moved` — atoms after some shifts of them all; `Workshop.HasMade` — a workshop with a made structure,
  as it was made or moved. `HasMade.shows_write` — this is what is written.
* `IsTiledOnceBuilt` — a design whose supercell never fails after its unit cell was built.
* `IsReady.step`, `IsReady.run` — for such a design there is nothing or a made structure at any time.
* `save_after_failure` — for any other one, a save after a failed attempt writes no atoms.

Principal result: `saves_show_made_iff` — every save shows a made structure just for designs of the
first kind. `exists_save_without_atoms` — there is one of the second kind.
-/

set_option autoImplicit false

namespace Honeycomb

/-! ## Atoms without neighbor data -/

section

variable {α : Type} [Scalar α]

omit [Scalar α] in
/-- An atom whose neighbor data have been dropped has none to drop. -/
theorem Atom.forgetNeighbors_eq_self {a b : Atom α}
    (hsurroundings : a.surroundings = b.forgetNeighbors.surroundings)
    (hpoav : a.poav = b.forgetNeighbors.poav) : a.forgetNeighbors = a := by
  have hs : a.surroundings.map (fun _ => {}) = a.surroundings := by
    rw [hsurroundings]
    simp [forgetNeighbors, Function.comp_def]
  have hp : a.poav.map (fun _ => {}) = a.poav := by
    rw [hpoav]
    simp [forgetNeighbors, Function.comp_def]
  unfold forgetNeighbors
  rw [hs, hp]

theorem forgetNeighbors_of_mem_arranged {design : Design α} {tiled : List (Atom α)} {a : Atom α}
    (h : a ∈ design.arranged tiled) : a.forgetNeighbors = a := by
  unfold Design.arranged at h
  split at h
  · obtain ⟨b, -, rfl⟩ := List.mem_map.1 h
    exact Atom.forgetNeighbors_eq_self rfl rfl
  · rename_i stack _
    obtain ⟨layer, hlayer, hmem⟩ := List.mem_flatten.1 h
    obtain ⟨i, hi, rfl⟩ := List.mem_mapIdx.1 hlayer
    obtain ⟨b, -, rfl⟩ := List.mem_map.1 hmem
    unfold Layers.place
    dsimp only
    split
    · exact Atom.forgetNeighbors_eq_self rfl rfl
    · exact Atom.forgetNeighbors_eq_self rfl rfl

omit [Scalar α] in
theorem forgetNeighbors_of_mem_numbered {atoms : List (Atom α)} {a : Atom α}
    (h : a ∈ numbered atoms) : a.forgetNeighbors = a := by
  have hdata : (numbered atoms).map (fun a => (a.surroundings, a.poav)) =
      atoms.map fun a => (a.forgetNeighbors.surroundings, a.forgetNeighbors.poav) := by
    rw [numbered, map_typedByElement fun _ _ => rfl]
    apply List.ext_getElem
    · simp
    · intro i hi hi'
      simp
  have hmem := List.mem_map_of_mem (f := fun a : Atom α => (a.surroundings, a.poav)) h
  rw [hdata] at hmem
  obtain ⟨b, -, hb⟩ := List.mem_map.1 hmem
  exact Atom.forgetNeighbors_eq_self (congrArg Prod.fst hb).symm (congrArg Prod.snd hb).symm

end

namespace Workshop

open Generator (SaveRequest)

/-- A request to make the structure or to save it. -/
def Request.IsMaking : Request → Prop
  | .generate _ => True
  | .save _ => True
  | .finalize => False
  | .edit _ => False

/-- The atoms of a structure that a new generator makes, numbered or not. -/
def IsMade (design : Design Double) (atoms : List (Atom Double)) : Prop :=
  ∃ finalized, ((opened design {} 0).make finalized).1 = .ok () ∧
    ((opened design {} 0).make finalized).2.generator.atoms.atoms = atoms

/-- Atoms that are moved by some shifts, one after another. Each shift is the same for all atoms, and
nothing but positions changes. -/
def moved (shifts : List (Vec3 Double)) (atoms : List (Atom Double)) : List (Atom Double) :=
  atoms.map fun a => { a with position := shifts.foldl (· + ·) a.position }

/-- The workshop has a made structure, as it was made or moved. -/
structure HasMade (design : Design Double) (w : Workshop) : Prop where
  design_eq : w.generator.design = design
  atoms_eq : ∃ made shifts, IsMade design made ∧ w.generator.atoms.atoms = moved shifts made

/-- The file at a path shows a made structure, as it was made or moved, in the format and with the
comment of a request. -/
def ShowsMade (design : Design Double) (request : SaveRequest) (path : String) (w : Workshop) :
    Prop :=
  ∃ f encode made shifts, FileFormat.resolve path request.format = .ok f ∧
    f.encode? = some encode ∧ IsMade design made ∧
      w.files.read? path =
        some (encode (moved shifts made) (request.comment.getD design.description))

variable {design : Design Double} {w : Workshop}

/-- What is made in a workshop is what a new generator makes. -/
theorem isMade_make (hdesign : w.generator.design = design) {finalized : Bool}
    (hok : (w.make finalized).1 = .ok ()) :
    IsMade design (w.make finalized).2.generator.atoms.atoms := by
  rw [outcome_make hdesign] at hok
  obtain ⟨super, hbuilt, -⟩ := map_eq_ok_iff.1 hok
  obtain ⟨hanew, hfresh⟩ := isMadeOf_make hbuilt (w := opened design {} 0) rfl finalized
  have hmade := (isMadeOf_make hbuilt hdesign finalized).2
  exact ⟨finalized, hanew, (hfresh.isSameStructure hmade).atoms_eq⟩

theorem hasMade_make (hdesign : w.generator.design = design) {finalized : Bool}
    (hok : (w.make finalized).1 = .ok ()) : HasMade design (w.make finalized).2 := by
  refine ⟨(w.design_make finalized).trans hdesign, _, [], isMade_make hdesign hok, ?_⟩
  exact (List.map_id' _).symm

theorem IsMade.forgetNeighbors_eq {atoms : List (Atom Double)} (h : IsMade design atoms) :
    ∀ a ∈ atoms, a.forgetNeighbors = a := by
  obtain ⟨finalized, hok, rfl⟩ := h
  rw [outcome_make rfl] at hok
  obtain ⟨super, hbuilt, -⟩ := map_eq_ok_iff.1 hok
  have hmade := (isMadeOf_make hbuilt (w := opened design {} 0) rfl finalized).2
  rw [hmade.atoms_eq]
  intro a ha
  cases finalized with
  | false => exact forgetNeighbors_of_mem_arranged ha
  | true => exact forgetNeighbors_of_mem_numbered ha

/-- A shift of all atoms comes last. -/
theorem moved_append_singleton {atoms : List (Atom Double)}
    (hbare : ∀ a ∈ atoms, a.forgetNeighbors = a) (shifts : List (Vec3 Double)) (t : Vec3 Double) :
    moved (shifts ++ [t]) atoms = (moved shifts atoms).map fun a =>
      { a.forgetNeighbors with position := a.position + t } := by
  unfold moved
  rw [List.map_map]
  apply List.map_congr_left
  intro a ha
  -- the motion drops neighbor data first, of which there are none
  have hlast : (shifts ++ [t]).foldl (· + ·) a.position = shifts.foldl (· + ·) a.position + t := by
    rw [List.foldl_append]
    rfl
  calc { a with position := (shifts ++ [t]).foldl (· + ·) a.position }
      = { a.forgetNeighbors with position := shifts.foldl (· + ·) a.position + t } := by
        rw [hbare a ha, hlast]
    _ = _ := rfl

theorem HasMade.readied (h : HasMade design w) (request : SaveRequest) :
    HasMade design (w.readied request) := by
  obtain ⟨hdesign, made, shifts, hmade, hatoms⟩ := h
  refine ⟨(w.design_readied request).trans hdesign, ?_⟩
  unfold Workshop.readied
  split
  case isTrue =>
    refine ⟨made, shifts ++ [-w.generator.atoms.centroid], hmade, ?_⟩
    rw [moved_append_singleton hmade.forgetNeighbors_eq, ← hatoms]
    rfl
  case isFalse => exact ⟨made, shifts, hmade, hatoms⟩

theorem HasMade.write (h : HasMade design w) (request : SaveRequest) :
    HasMade design (w.write request).2 := by
  have hreadied := h.readied request
  rw [write_eq]
  exact ⟨hreadied.design_eq, hreadied.atoms_eq⟩

/-- **What has been made is what is written.** -/
theorem HasMade.shows_write (h : HasMade design w) {request : SaveRequest} {path : String}
    {w' : Workshop} (hwrite : w.write request = (.ok path, w')) : ShowsMade design request path w' := by
  obtain ⟨made, shifts, hmade, hatoms⟩ := (h.readied request).atoms_eq
  rw [write_eq] at hwrite
  dsimp only at hwrite
  obtain ⟨houtcome, rfl⟩ := Prod.mk.inj hwrite
  obtain ⟨⟨⟩, hwritten, rfl⟩ := map_eq_ok_iff.1 houtcome
  obtain ⟨f, encode, hformat, hencode, hfile⟩ := run_writeStructure_iff.1 (Prod.ext hwritten rfl)
  refine ⟨f, encode, made, shifts, hformat, hencode, hmade, ?_⟩
  rw [← h.design_eq, ← hatoms]
  exact FileTree.read?_write? hfile

/-! ## Every save -/

/-- Nothing has been made yet, or the workshop has a made structure. -/
structure IsReady (design : Design Double) (w : Workshop) : Prop where
  design_eq : w.generator.design = design
  made : w.generator.stage = .uninitialized ∨ HasMade design w

/-- A supercell of the design never fails after its unit cell was built. -/
def IsTiledOnceBuilt (design : Design Double) : Prop :=
  ∀ cell, design.unitCell = .ok cell → ∃ super, Generator.supercell design cell = .ok super

theorem isReady_opened (design : Design Double) (files : FileTree) (r : Revision) :
    IsReady design (opened design files r) :=
  ⟨rfl, .inl rfl⟩

/-- A failed attempt leaves nothing that could be taken for a structure, as long as the unit cell is
all that can fail. -/
theorem isReady_make (htiled : IsTiledOnceBuilt design) (hdesign : w.generator.design = design)
    (finalized : Bool) : IsReady design (w.make finalized).2 := by
  obtain ⟨e, -, hmade⟩ | ⟨cell, e, hcell, hsuper, -⟩ | ⟨cell, super, -, -, hmade⟩ :=
    Generator.generate_cases design
  · obtain ⟨-, hempty⟩ := hmade w.generator finalized w.revision hdesign
    exact ⟨hempty.design_eq, .inl hempty.stage_eq⟩
  · -- this is the failure that would leave the stage of a unit cell and no atoms
    obtain ⟨super, hsuper'⟩ := htiled cell hcell
    cases hsuper.symm.trans hsuper'
  · have hok : (w.make finalized).1 = .ok () := (hmade w.generator finalized w.revision hdesign).1
    have h := hasMade_make hdesign hok
    exact ⟨h.design_eq, .inr h⟩

theorem HasMade.isReady_write (h : HasMade design w) (request : SaveRequest) :
    IsReady design (w.write request).2 ∧
      ∀ path w', w.write request = (.ok path, w') → ShowsMade design request path w' := by
  have hwrite := h.write request
  exact ⟨⟨hwrite.design_eq, .inr hwrite⟩, fun _ _ hw => h.shows_write hw⟩

/-- Where nothing fails but the unit cell, a save leaves the workshop ready and shows what was
made. -/
theorem IsReady.save (htiled : IsTiledOnceBuilt design) (h : IsReady design w)
    (request : SaveRequest) :
    IsReady design (w.save request).2 ∧
      ∀ path w', w.save request = (.ok path, w') → ShowsMade design request path w' := by
  rw [save_eq]
  by_cases hstage : w.generator.stage = .uninitialized
  · rw [if_pos hstage]
    have hready := isReady_make htiled h.design_eq true
    rcases hmake : w.make true with ⟨outcome, v⟩
    rw [hmake] at hready
    cases outcome with
    | error e =>
      refine ⟨hready, ?_⟩
      intro path w' hw
      cases (Prod.mk.inj hw).1
    | ok u =>
      have hmade := hasMade_make h.design_eq (congrArg Prod.fst hmake)
      rw [hmake] at hmade
      exact hmade.isReady_write request
  · rw [if_neg hstage]
    exact (h.made.resolve_left hstage).isReady_write request

theorem IsReady.step (htiled : IsTiledOnceBuilt design) (h : IsReady design w) {request : Request}
    (hrequest : request.IsMaking) : IsReady design (w.step request) := by
  cases request with
  | generate finalized => exact isReady_make htiled h.design_eq finalized
  | save request => exact (h.save htiled request).1
  | finalize => exact hrequest.elim
  | edit change => exact hrequest.elim

theorem IsReady.run (htiled : IsTiledOnceBuilt design) {requests : List Request}
    (hrequests : ∀ request ∈ requests, request.IsMaking) (h : IsReady design w) :
    IsReady design (w.run requests) := by
  induction requests generalizing w with
  | nil => exact h
  | cons request rest ih =>
    obtain ⟨hfirst, hrest⟩ := List.forall_mem_cons.1 hrequests
    exact ih hrest (h.step htiled hfirst)

/-- A request to save under a name of its own. -/
def plainly : SaveRequest :=
  { name := some "sheet.xyz" }

/-- A structure whose supercell fails is never made. -/
theorem not_isMade_of_supercell {cell : UnitCell Double} {e : Error Double}
    (hcell : design.unitCell = .ok cell) (hsuper : Generator.supercell design cell = .error e)
    (atoms : List (Atom Double)) : ¬ IsMade design atoms := by
  rintro ⟨finalized, hok, -⟩
  rw [outcome_make rfl] at hok
  obtain ⟨super, hbuilt, -⟩ := map_eq_ok_iff.1 hok
  obtain ⟨cell', hcell', hsuper'⟩ := bind_eq_ok_iff.1 hbuilt
  cases hcell.symm.trans hcell'
  cases hsuper.symm.trans hsuper'

theorem path_plainly (w : Workshop) : w.path plainly = "sheet.xyz" := by
  have hknown : (FileFormat.ofPath "sheet.xyz" : Except (Error Double) _).isOk = true := by
    decide +kernel
  simp [path, plainly, Generator.resolveOutput, Option.filter, hknown]

/-- **After an attempt that failed at the supercell, a save succeeds and writes no atoms.** -/
theorem save_after_failure {cell : UnitCell Double} {e : Error Double}
    (hcell : design.unitCell = .ok cell) (hsuper : Generator.supercell design cell = .error e)
    (finalized : Bool) : ∃ w',
      ((opened design {} 0).run [.generate finalized]).save plainly = (.ok "sheet.xyz", w') ∧
        w'.files.read? "sheet.xyz" = some (Xyz.write [] design.description) := by
  let w := (opened design {} 0).run [.generate finalized]
  change ∃ w', w.save plainly = _ ∧ _
  have hempty : Generator.IsEmptied design .basisBuilt w.generator :=
    (Generator.isEmptied_generate_of_supercell (g := (opened design {} 0).generator) hcell hsuper
      finalized (opened design {} 0).revision).2
  have hstage : w.generator.stage ≠ .uninitialized := by
    intro h
    cases hempty.stage_eq.symm.trans h
  have hcomment : w.comment plainly = design.description :=
    congrArg Design.description hempty.design_eq
  have hplace : w.files.locate "sheet.xyz" = some ["sheet.xyz"] :=
    FileTree.locate_of_isFileName (by decide) (by simp) List.not_mem_nil
  have hreadied : w.readied plainly = w := rfl
  have hformat : FileFormat.resolve "sheet.xyz" plainly.format = .ok .xyz :=
    resolve_of_extension (by decide +kernel)
  obtain ⟨w', hsave, htext⟩ := exists_save hstage (path_plainly w) hplace hformat rfl
  rw [hreadied, hempty.atoms_eq, hcomment] at htext
  exact ⟨w', hsave, htext⟩

/-- **Every save shows what was made** just when a supercell never fails after its unit cell was
built. -/
theorem saves_show_made_iff (design : Design Double) :
    (∀ (files : FileTree) (r : Revision) (requests : List Request),
      (∀ request ∈ requests, request.IsMaking) → ∀ (request : SaveRequest) (path : String)
        (w' : Workshop), ((opened design files r).run requests).save request = (.ok path, w') →
          ShowsMade design request path w') ↔ IsTiledOnceBuilt design := by
  constructor
  · intro h cell hcell
    cases hsuper : Generator.supercell design cell with
    | ok super => exact ⟨super, rfl⟩
    | error e =>
      obtain ⟨w', hsave, -⟩ := save_after_failure hcell hsuper true
      obtain ⟨-, -, made, -, -, -, hmade, -⟩ :=
        h {} 0 [.generate true] (by simp [Request.IsMaking]) plainly _ w' hsave
      exact absurd hmade (not_isMade_of_supercell hcell hsuper made)
  · intro htiled files r requests hrequests request path w' hsave
    have hready := (isReady_opened design files r).run htiled hrequests
    exact (hready.save htiled request).2 path w' hsave

/-- An unrolled tube that is too long. -/
def longFlatTube : Design Double :=
  .flat { armchairTube with cellsAlong := 10000001 }

/-- **A file without atoms is saved** for a tube that cannot be made. -/
theorem exists_save_without_atoms :
    ∃ w', ((opened longFlatTube {} 0).run [.generate true]).save plainly = (.ok "sheet.xyz", w') ∧
      w'.files.read? "sheet.xyz" =
        some "0\n1-layer unrolled CC SWNT (5,5), 1 cell x 10000001 cells\n" ∧
      ¬ ShowsMade longFlatTube plainly "sheet.xyz" w' := by
  have htext : Xyz.write [] longFlatTube.description =
      "0\n1-layer unrolled CC SWNT (5,5), 1 cell x 10000001 cells\n" := by
    decide +kernel
  have hbuilt : longFlatTube.unitCell.isOk = true := by decide +kernel
  have hlong : (longFlatTube.scaling : Except (Error Double) _).isOk = false := by decide +kernel
  have hfails : ∀ cell, ∃ e, Generator.supercell longFlatTube cell = .error e := by
    intro cell
    cases hsuper : Generator.supercell longFlatTube cell with
    | error e => exact ⟨e, rfl⟩
    | ok super =>
      obtain ⟨s, hscaling, -⟩ := bind_eq_ok_iff.1 hsuper
      rw [hscaling] at hlong
      cases hlong
  cases hcell : longFlatTube.unitCell with
  | error e =>
    rw [hcell] at hbuilt
    cases hbuilt
  | ok cell =>
    obtain ⟨e, hsuper⟩ := hfails cell
    obtain ⟨w', hsave, hfile⟩ := save_after_failure hcell hsuper true
    rw [htext] at hfile
    refine ⟨w', hsave, hfile, ?_⟩
    rintro ⟨-, -, made, -, -, -, hmade, -⟩
    exact not_isMade_of_supercell hcell hsuper made hmade

end Workshop

end Honeycomb
