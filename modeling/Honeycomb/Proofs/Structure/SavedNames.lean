import Honeycomb.Proofs.File.Paths
import Honeycomb.Proofs.Structure.FailedSaves

/-!
# What saved files are called

* `Generator.SaveRequest.KeepsFormat` — no other format is asked for than the name already carries.
* `Generator.isNamedBy_resolveOutput_iff` — when the path that a format is saved under names it.
* `Generator.writes_of_save` — what a save that succeeds has written, and where.

Principal result: `Generator.saved_file_names_its_format`. A format that is asked for is written
under any name, so that the name can say otherwise (`Workshop.saved_under_another_format`).
-/

set_option autoImplicit false

namespace Honeycomb

/-! ## Stems -/

theorem endsInName_pluralize (count : Nat) : Path.EndsInName (pluralize count "cell") := by
  unfold pluralize
  split
  case isTrue =>
    rw [String.append_empty]
    exact Path.EndsInName.append ⟨'l', by decide, by decide⟩ _
  case isFalse => exact Path.EndsInName.append ⟨'s', by decide, by decide⟩ _

/-- The stem of every design ends in a name. -/
theorem Design.endsInName_fileStem (design : Design Double) : Path.EndsInName design.fileStem := by
  cases design with
  | sheet g =>
    have hnm : Path.EndsInName "nm" := ⟨'m', by decide, by decide⟩
    unfold fileStem
    dsimp only
    split
    · exact hnm.append _
    · exact hnm.append _
  | tube t => exact (endsInName_pluralize _).append _
  | flat t => exact (endsInName_pluralize _).append _

namespace Generator

/-! ## Names and formats -/

/-- No other format is asked for than the name already carries. -/
def SaveRequest.KeepsFormat (request : SaveRequest) : Prop :=
  ∀ f n k, request.format = some f → request.name = some n → k.IsNamedBy n → f = k

/-- A name that carries no format ends in a name, which an extension can be put behind. -/
def SaveRequest.HasStem (request : SaveRequest) : Prop :=
  ∀ n, request.name = some n → (∀ k : FileFormat, ¬ k.IsNamedBy n) → Path.EndsInName n

/-- A name that carries a format is used as it is. -/
theorem isNamedBy_resolveOutput {n : String} {k : FileFormat} (h : k.IsNamedBy n) (stem : String)
    (directory : Option String) (format : Option FileFormat) :
    k.IsNamedBy (resolveOutput (some n) stem directory format) := by
  have hknown : (FileFormat.ofPath n : Except (Error Double) _).isOk = true := by
    rw [h]
    rfl
  simp only [resolveOutput, Option.filter, hknown, if_true]
  cases directory with
  | none => exact h
  | some d => exact h.join d

/-- Any other name, and the stem that stands for none, gets the extension of the format. -/
theorem resolveOutput_of_unknown {name : Option String}
    (h : ∀ n, name = some n → ∀ k : FileFormat, ¬ k.IsNamedBy n) (stem : String)
    (directory : Option String) (format : Option FileFormat) :
    resolveOutput name stem directory format =
      outputPath (name.getD stem) directory (format.getD .xyz) := by
  cases name with
  | none => rfl
  | some n =>
    have hunknown : (FileFormat.ofPath n : Except (Error Double) _).isOk = false := by
      cases hn : (FileFormat.ofPath n : Except (Error Double) _) with
      | ok k => exact absurd hn (h n rfl k)
      | error e => rfl
    simp [resolveOutput, Option.filter, hunknown]

/-- **The path that a structure is saved to names the format**, unless the name already carried
another one. -/
theorem isNamedBy_resolveOutput_iff {request : SaveRequest} (hstem : request.HasStem)
    {stem path : String} (hdesign : Path.EndsInName stem)
    (hpath : path = resolveOutput request.name stem request.directory request.format)
    {f : FileFormat} (hf : FileFormat.resolve path request.format = .ok f) :
    f.IsNamedBy path ↔ request.KeepsFormat := by
  cases hformat : request.format with
  | none =>
    rw [hformat] at hf
    apply iff_of_true hf
    intro g n k hg
    cases hformat.symm.trans hg
  | some g =>
    rw [hformat] at hf
    obtain rfl : g = f := Except.ok.inj hf
    by_cases hknown : ∃ n k, request.name = some n ∧ FileFormat.IsNamedBy k n
    · obtain ⟨n, k, hname, hk⟩ := hknown
      have hcarried : k.IsNamedBy path := by
        rw [hpath, hname]
        exact isNamedBy_resolveOutput hk stem request.directory request.format
      constructor
      · intro hg g' n' k' hg' hn' hk'
        cases hformat.symm.trans hg'
        cases hname.symm.trans hn'
        rw [hg.eq hcarried, hk.eq hk']
      · intro hkeeps
        rw [hkeeps g n k hformat hname hk]
        exact hcarried
    · have hunknown : ∀ n, request.name = some n → ∀ k : FileFormat, ¬ k.IsNamedBy n :=
        fun n hname k hk => hknown ⟨n, k, hname, hk⟩
      apply iff_of_true
      · rw [hpath, resolveOutput_of_unknown hunknown, hformat]
        apply FileFormat.isNamedBy_outputPath
        cases hname : request.name with
        | none => exact hdesign
        | some n => exact hstem n hname (hunknown n hname)
      · intro g' n' k' _ hn' hk'
        exact absurd hk' (hunknown n' hn' k')

/-! ## What is written -/

variable {σ : Type} (files : FileAccess (StateM σ))

theorem writes_of_saveMade {g g' : Generator Double} {request : SaveRequest} {path : String}
    {r r' : Revision} {s s' : σ}
    (h : Id.run (((saveMade files g request).run r).run s) = (((.ok path, g'), r'), s')) :
    path = resolveOutput request.name g.design.fileStem request.directory request.format ∧
      Id.run ((writeStructure files path g'.atoms.atoms request.format
        (request.comment.getD g.design.description)).run s) = (.ok (), s') := by
  rw [run_saveMade] at h
  obtain ⟨hleft, hs⟩ := Prod.mk.inj h
  obtain ⟨houtcome, rfl⟩ := Prod.mk.inj (Prod.mk.inj hleft).1
  obtain ⟨⟨⟩, hwritten, rfl⟩ := map_eq_ok_iff.1 houtcome
  exact ⟨rfl, Prod.ext hwritten hs⟩

/-- **What a save that succeeds has written, and where.** -/
theorem writes_of_save {g g' : Generator Double} {request : SaveRequest} {path : String}
    {r r' : Revision} {s s' : σ}
    (h : Id.run (((save files g request).run r).run s) = (((.ok path, g'), r'), s')) :
    path = resolveOutput request.name g.design.fileStem request.directory request.format ∧
      Id.run ((writeStructure files path g'.atoms.atoms request.format
        (request.comment.getD g.design.description)).run s) = (.ok (), s') := by
  rw [run_save] at h
  split at h
  case isTrue =>
    have hdesign := g.design_generate true r
    split at h
    · cases (Prod.mk.inj (Prod.mk.inj (Prod.mk.inj h).1).1).1
    · rename_i u made next hmade
      rw [hmade] at hdesign
      have hwrites := writes_of_saveMade files h
      rwa [show made.design = g.design from hdesign] at hwrites
  case isFalse => exact writes_of_saveMade files h

/-- **A saved file names its format**, unless the name that was given already carried another one
than was asked for. What has been written is the text of the atoms in the format, and where the path
names it, reading the file without a format uses the reader of this format. -/
theorem saved_file_names_its_format {g g' : Generator Double} {request : SaveRequest}
    {path : String} {r r' : Revision} {s s' : σ} (hstem : request.HasStem)
    (hsave : Id.run (((save files g request).run r).run s) = (((.ok path, g'), r'), s')) :
    ∃ f encode, FileFormat.resolve path request.format = .ok f ∧ f.encode? = some encode ∧
      Id.run ((files.write path (encode g'.atoms.atoms
        (request.comment.getD g.design.description))).run s) = (true, s') ∧
      (f.IsNamedBy path ↔ request.KeepsFormat) ∧
      (request.KeepsFormat → ∃ decode, f.decode? = some decode ∧
        readStructure files path none = readWith files decode path) := by
  obtain ⟨hpath, hwrites⟩ := writes_of_save files hsave
  obtain ⟨f, encode, hf, hencode, htext⟩ := text_of_writeStructure files hwrites
  have hnamed := isNamedBy_resolveOutput_iff hstem g.design.endsInName_fileStem hpath hf
  refine ⟨f, encode, hf, hencode, htext, hnamed, ?_⟩
  intro hkeeps
  obtain ⟨decode, hdecode⟩ := exists_decode hencode
  have hresolve : FileFormat.resolve path none = .ok f := hnamed.2 hkeeps
  refine ⟨decode, hdecode, ?_⟩
  unfold readStructure
  rw [hresolve]
  dsimp only
  rw [hdecode]

end Generator

namespace Workshop

open Generator (SaveRequest)

/-- There are no directories that a file could be taken for. -/
theorem locate_withFlatTubes {name : String} (hname : FileTree.isFileName name.toList = true)
    (hplain : ∀ c ∈ name.toList, c ≠ '/' ∧ c ≠ '\x00') :
    withFlatTubes.files.locate name = some [name] :=
  FileTree.locate_of_isFileName hname hplain List.not_mem_nil

/-- A name with an extension that stands for no format. -/
def versioned : SaveRequest :=
  { name := some "sheet.v2", format := some .data }

theorem saved_file_names_data : versioned.HasStem ∧ versioned.KeepsFormat ∧
    ∃ w' f, withFlatTubes.save versioned = (.ok "sheet.v2.data", w') ∧
      FileFormat.IsNamedBy f "sheet.v2.data" := by
  have hstem : versioned.HasStem := by
    intro n hn _
    obtain rfl : "sheet.v2" = n := Option.some.inj hn
    exact ⟨'2', by decide, by decide⟩
  have hkeeps : versioned.KeepsFormat := by
    intro f n k _ hn hk
    obtain rfl : "sheet.v2" = n := Option.some.inj hn
    apply absurd hk
    cases k <;> decide +kernel
  have hpath : withFlatTubes.path versioned = "sheet.v2.data" := by decide +kernel
  obtain ⟨w', hsave, -⟩ := exists_save withFlatTubes_isMade hpath
    (locate_withFlatTubes (by decide) (by simp)) rfl rfl
  have hrun := withFlatTubes.run_save versioned
  rw [hsave] at hrun
  obtain ⟨f, -, -, -, -, hnamed, -⟩ :=
    Generator.saved_file_names_its_format FileTree.access hstem hrun
  exact ⟨hstem, hkeeps, w', f, hsave, hnamed.2 hkeeps⟩

/-- A name that carries one format, and another one to write. -/
def dataUnderXyz : SaveRequest :=
  { name := some "t.xyz", format := some .data }

/-- No name but the one that comes of an extension. -/
def dataUnderDot : SaveRequest :=
  { name := some "", format := some .data }

theorem saved_under_another_format :
    (∃ w', withFlatTubes.save dataUnderXyz = (.ok "t.xyz", w') ∧
      w'.files.read? "t.xyz" = some (LammpsData.write withFlatTubes.generator.atoms.atoms
        (withFlatTubes.comment dataUnderXyz) LammpsData.usualPadding) ∧
      FileFormat.IsNamedBy .xyz "t.xyz") ∧
    ∃ w', withFlatTubes.save dataUnderDot = (.ok ".data", w') ∧
      ∀ f : FileFormat, ¬ f.IsNamedBy ".data" := by
  have hxyz : withFlatTubes.path dataUnderXyz = "t.xyz" := by decide +kernel
  have hdot : withFlatTubes.path dataUnderDot = ".data" := by decide +kernel
  constructor
  · obtain ⟨w', hsave, htext⟩ := exists_save withFlatTubes_isMade hxyz
      (locate_withFlatTubes (by decide) (by simp)) rfl rfl
    have hreadied : withFlatTubes.readied dataUnderXyz = withFlatTubes := rfl
    rw [hreadied] at htext
    exact ⟨w', hsave, htext, by decide +kernel⟩
  · obtain ⟨w', hsave, -⟩ := exists_save withFlatTubes_isMade hdot
      (locate_withFlatTubes (by decide) (by simp)) rfl rfl
    refine ⟨w', hsave, ?_⟩
    intro f
    cases f <;> decide +kernel

end Workshop

end Honeycomb
