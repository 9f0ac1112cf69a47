import Mathlib
import Honeycomb.File.Dispatch

/-!
# Reading and writing structures in files

* `FileTree.locate_of_isFileName` — a plain name is the place of a file.
* `run_readStructure_iff`, `run_writeStructure_iff` — when a structure is read and when it is
  written. `run_readStructure_of_write` — what was written in a format is read in this format.
* `writeStructure_cases` — in files of any kind a structure is refused before a file is touched, or
  written as a text; `error_of_writeStructure`, `text_of_writeStructure` — what came of it.
* `exists_decode` — every format that is written is read.
-/

set_option autoImplicit false

namespace Honeycomb

/-- A name without slashes is the place of a file unless a directory has it. -/
theorem FileTree.locate_of_isFileName {tree : FileTree} {name : String}
    (hname : isFileName name.toList = true) (hplain : ∀ c ∈ name.toList, c ≠ '/' ∧ c ≠ '\x00')
    (hfree : [name] ∉ tree.directories) : tree.locate name = some [name] := by
  have hzero : name.contains '\x00' = false := by
    simpa using fun h => (hplain _ h).2 rfl
  have hsize : name.utf8ByteSize ≤ 255 := by
    simp only [isFileName, Bool.and_eq_true, decide_eq_true_eq, String.ofList_toList] at hname
    exact hname.2
  have hroot : name.toList.head? ≠ some '/' := by
    intro hhead
    exact (hplain '/' (List.mem_of_mem_head? hhead)).1 rfl
  have hcut : Text.cut (· == '/') name.toList = [name.toList] := by
    apply Text.cut_of_unmarked
    intro c hc
    simpa using (hplain c hc).1
  have hshort : ¬4096 ≤ name.utf8ByteSize := by omega
  simp only [locate, hzero, hshort, hroot, hcut, decide_false, Bool.or_self,
    Bool.false_eq_true, if_false]
  simp [walk, hname, hfree]

/-- A path with the extension of a format names it. -/
theorem resolve_of_extension {path : String} {f : FileFormat}
    (h : Path.extension? path = some f.extension) : FileFormat.resolve path none = .ok f := by
  have hname : String.ofList (Text.lowered (f.extension.toList.dropWhile (· == '.'))) =
      f.extension := by
    cases f <;> decide
  rw [FileFormat.resolve, FileFormat.ofPath, h]
  dsimp only
  rw [FileFormat.read, hname, FileFormat.ofName?_extension]

/-! ## Files of any kind -/

theorem error_of_resolve {path : String} {format : Option FileFormat} {e : Error Double}
    (h : FileFormat.resolve path format = .error e) : ∃ text, e = .unsupportedFormat text := by
  cases format with
  | some f => cases h
  | none =>
    unfold FileFormat.resolve FileFormat.ofPath FileFormat.read at h
    dsimp only at h
    split at h
    · split at h
      · cases h
      · exact ⟨_, (Except.error.inj h).symm⟩
    · exact ⟨_, (Except.error.inj h).symm⟩

/-- A structure whose format is not supported is refused, and any other one is written as a text. -/
theorem writeStructure_cases {m : Type → Type} [Monad m] (files : FileAccess m) (path : String)
    (atoms : List (Atom Double)) (format : Option FileFormat) (comment : String) :
    (∃ text, writeStructure files path atoms format comment =
      pure (.error (.unsupportedFormat text))) ∨
    ∃ f encode, FileFormat.resolve path format = .ok f ∧ f.encode? = some encode ∧
      writeStructure files path atoms format comment =
        writeText files path (encode atoms comment) := by
  unfold writeStructure
  cases hresolve : FileFormat.resolve path format with
  | error e =>
    obtain ⟨text, rfl⟩ := error_of_resolve hresolve
    exact .inl ⟨text, rfl⟩
  | ok f =>
    dsimp only
    cases hencode : f.encode? with
    | none => exact .inl ⟨_, rfl⟩
    | some encode => exact .inr ⟨f, encode, rfl, hencode, rfl⟩

section

variable {σ : Type} (files : FileAccess (StateM σ)) {path comment : String}
  {atoms : List (Atom Double)} {format : Option FileFormat} {s s' : σ}

/-- A text is written unless the file cannot be opened. -/
theorem run_writeText_eq (path text : String) (s : σ) :
    Id.run ((writeText files path text).run s) =
      let written := Id.run ((files.write path text).run s)
      (if written.1 then .ok () else .error .file, written.2) := by
  unfold writeText
  rw [StateT.run_bind]
  rcases (files.write path text).run s with ⟨opened, t⟩
  cases opened with
  | true => rfl
  | false => rfl

/-- **A structure is not written** if its format is not supported, and then no file has been
touched, or if the file cannot be opened. -/
theorem error_of_writeStructure {e : Error Double}
    (h : Id.run ((writeStructure files path atoms format comment).run s) = (.error e, s')) :
    ((∃ text, e = .unsupportedFormat text) ∧ s' = s) ∨ e = .file := by
  obtain ⟨text, hrefused⟩ | ⟨f, encode, -, -, hwritten⟩ :=
    writeStructure_cases files path atoms format comment
  · rw [hrefused] at h
    obtain ⟨he, hs⟩ := Prod.mk.inj h
    exact .inl ⟨⟨text, (Except.error.inj he).symm⟩, hs.symm⟩
  · rw [hwritten, run_writeText_eq] at h
    have houtcome := (Prod.mk.inj h).1
    split at houtcome
    · cases houtcome
    · exact .inr (Except.error.inj houtcome).symm

/-- **Where a structure is written**, the file has its text in a format. -/
theorem text_of_writeStructure
    (h : Id.run ((writeStructure files path atoms format comment).run s) = (.ok (), s')) :
    ∃ f encode, FileFormat.resolve path format = .ok f ∧ f.encode? = some encode ∧
      Id.run ((files.write path (encode atoms comment)).run s) = (true, s') := by
  obtain ⟨text, hrefused⟩ | ⟨f, encode, hf, hencode, hwritten⟩ :=
    writeStructure_cases files path atoms format comment
  · rw [hrefused] at h
    cases (Prod.mk.inj h).1
  · rw [hwritten, run_writeText_eq] at h
    obtain ⟨houtcome, hs⟩ := Prod.mk.inj h
    refine ⟨f, encode, hf, hencode, Prod.ext ?_ hs⟩
    by_contra hclosed
    rw [if_neg hclosed] at houtcome
    cases houtcome

end

/-! ## Files in a tree -/

variable {atoms : List (Atom Double)} {tree next : FileTree} {path text comment : String}
  {format : Option FileFormat} {s : StructureFile}

theorem run_readWith (decode : String → Except (Error Double) StructureFile) :
    Id.run ((readWith FileTree.access decode path).run tree) =
      (match tree.read? path with
        | some text => decode text
        | none => .error .file, tree) := by
  cases htext : tree.read? path with
  | none => simp [readWith, FileTree.access, htext]
  | some text => simp [readWith, FileTree.access, htext]

theorem run_writeText :
    Id.run ((writeText FileTree.access path text).run tree) =
      match tree.write? path text with
      | some next => (.ok (), next)
      | none => (.error .file, tree) := by
  cases hnext : tree.write? path text with
  | none => simp [writeText, FileTree.access, hnext]
  | some next => simp [writeText, FileTree.access, hnext]

/-- **Reading a structure** leaves the files as they are. -/
theorem run_readStructure_iff :
    Id.run ((readStructure FileTree.access path format).run tree) = (.ok s, next) ↔
      tree = next ∧ ∃ f decode text, FileFormat.resolve path format = .ok f ∧
        f.decode? = some decode ∧ tree.read? path = some text ∧ decode text = .ok s := by
  unfold readStructure
  cases hf : FileFormat.resolve path format with
  | error e => simp
  | ok f =>
    dsimp only
    cases hdecode : f.decode? with
    | none => simp [hdecode]
    | some decode =>
      dsimp only
      rw [run_readWith]
      cases htext : tree.read? path with
      | none => simp
      | some text => simp [hdecode, and_comm]

/-- **Writing a structure** writes the text of its format to the path. -/
theorem run_writeStructure_iff :
    Id.run ((writeStructure FileTree.access path atoms format comment).run tree) =
        (.ok (), next) ↔
      ∃ f encode, FileFormat.resolve path format = .ok f ∧ f.encode? = some encode ∧
        tree.write? path (encode atoms comment) = some next := by
  unfold writeStructure
  cases hf : FileFormat.resolve path format with
  | error e => simp
  | ok f =>
    dsimp only
    cases hencode : f.encode? with
    | none => simp [hencode]
    | some encode =>
      dsimp only
      rw [run_writeText]
      cases hnext : tree.write? path (encode atoms comment) with
      | none => simp [hencode, hnext]
      | some tree' => simp [hencode, hnext]

/-- What was written in a format is read in this format. -/
theorem run_readStructure_of_write {f : FileFormat}
    {decode : String → Except (Error Double) StructureFile} (hf : FileFormat.resolve path format = .ok f)
    (hdecode : f.decode? = some decode) (hnext : tree.write? path text = some next) :
    Id.run ((readStructure FileTree.access path format).run next) = (decode text, next) := by
  unfold readStructure
  rw [hf]
  dsimp only
  rw [hdecode]
  dsimp only
  rw [run_readWith, FileTree.read?_write? hnext]

/-- Every format that is written is read. -/
theorem exists_decode {f : FileFormat} {encode : List (Atom Double) → String → String}
    (hencode : f.encode? = some encode) :
    ∃ decode, f.decode? = some decode := by
  cases f with
  | xyz => exact ⟨_, rfl⟩
  | data => exact ⟨_, rfl⟩
  | dump => cases hencode

end Honeycomb
