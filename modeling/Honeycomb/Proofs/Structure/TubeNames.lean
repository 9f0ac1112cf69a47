import Honeycomb.Proofs.File.Places
import Honeycomb.Proofs.Number.Decimal
import Honeycomb.Proofs.Structure.SavedNames

/-!
# What tubes are called

The two indices of a tube stand side by side in the name of its file, each with two digits at least.
The border between them can no longer be told once both names have indices of three digits.

* `paddedIndex` — an index as it stands in a name; `paddedIndex_eq_append` — when it is made up of
  two runs of digits.
* `Chirality.PassesDigits` — the border between the indices moves across some digits;
  `Chirality.paddedIndices_eq_iff` — this is all that can happen to indices that are written alike.
* `Tube.SharesName` — two tubes are called the same; `Design.fileStem_tube_eq_iff`.
* `Design.fileStem_flat_eq_iff` — unrolled tubes are never called the same.
* `Workshop.files_save` — a save touches one file at most.
* `Design.LeavesAlone` — no save of a design without a name of its own touches a file.

Principal result: `Design.tubes_share_path_iff`. Below a hundred no two tubes share a name; above, a
tube can replace another one (`Design.tube_replaces_tube`).
-/

set_option autoImplicit false

namespace Honeycomb

/-! ## Indices -/

/-- An index as it stands in the name of a tube. -/
def paddedIndex (n : Nat) : String :=
  if n < 10 then "0" ++ toString n else toString n

section

variable {n : Nat}

theorem paddedIndex_of_lt (h : n < 10) : (paddedIndex n).toList = '0' :: natDigits n := by
  rw [paddedIndex, if_pos h, String.toList_append, Nat.toString_eq_repr, Nat.toList_repr]
  rfl

theorem paddedIndex_of_le (h : 10 ≤ n) : (paddedIndex n).toList = natDigits n := by
  rw [paddedIndex, if_neg (by omega), Nat.toString_eq_repr, Nat.toList_repr]
  rfl

theorem isDigit_of_mem_paddedIndex {c : Char} (hc : c ∈ (paddedIndex n).toList) :
    c.isDigit = true := by
  by_cases h : n < 10
  · rw [paddedIndex_of_lt h] at hc
    rcases List.mem_cons.1 hc with rfl | hc
    · rfl
    · exact isDigit_of_mem_natDigits hc
  · rw [paddedIndex_of_le (by omega)] at hc
    exact isDigit_of_mem_natDigits hc

theorem digitsValue_paddedIndex (n : Nat) : digitsValue (paddedIndex n).toList = n := by
  by_cases h : n < 10
  · rw [paddedIndex_of_lt h]
    exact digitsValue_natDigits n
  · rw [paddedIndex_of_le (by omega), digitsValue_natDigits]

theorem length_paddedIndex (n : Nat) :
    (paddedIndex n).toList.length = max 2 (decimalPlaces n) := by
  by_cases h : n < 10
  · have hplaces := (decimalPlaces_le_iff (n := n) one_pos).2 h
    have hpos : 0 < decimalPlaces n := Nat.length_toDigits_pos
    rw [paddedIndex_of_lt h, List.length_cons]
    unfold decimalPlaces at hplaces hpos ⊢
    omega
  · have hplaces : ¬decimalPlaces n ≤ 1 := fun hle => h ((decimalPlaces_le_iff one_pos).1 hle)
    rw [paddedIndex_of_le (by omega)]
    unfold decimalPlaces at hplaces ⊢
    omega

/-- An index starts with a zero just when it has been padded. -/
theorem head?_paddedIndex : (paddedIndex n).toList.head? = some '0' ↔ n < 10 := by
  by_cases h : n < 10
  · simp [paddedIndex_of_lt h, h]
  · rw [paddedIndex_of_le (by omega)]
    exact iff_of_false (head?_natDigits (by omega)) h

/-- An index with more than two digits has not been padded. -/
theorem le_of_lt_length_paddedIndex (h : 2 < (paddedIndex n).toList.length) : 10 ≤ n := by
  by_contra hlt
  have hplaces := (decimalPlaces_le_iff (n := n) one_pos).2 (by omega)
  rw [length_paddedIndex] at h
  omega

/-- What an index with more than two digits starts with is not a zero. -/
theorem head?_of_paddedIndex_eq_append {front back : List Char}
    (h : (paddedIndex n).toList = front ++ back) (hne : front ≠ [])
    (hlong : 2 < front.length + back.length) : front.head? ≠ some '0' := by
  have hn : 10 ≤ n := by
    apply le_of_lt_length_paddedIndex
    rwa [h, List.length_append]
  rw [← List.head?_append_of_ne_nil _ hne, ← h, Ne, head?_paddedIndex]
  omega

/-- Two runs of digits make up an index when their values do. -/
theorem paddedIndex_eq_append {front back : List Char} (hfront : ∀ c ∈ front, c.isDigit = true)
    (hback : ∀ c ∈ back, c.isDigit = true) (hne : front ≠ []) (hhead : front.head? ≠ some '0')
    (hn : 10 ≤ n) (hvalue : n = digitsValue front * 10 ^ back.length + digitsValue back) :
    (paddedIndex n).toList = front ++ back := by
  have hdigits : ∀ c ∈ front ++ back, c.isDigit = true := fun c hc =>
    (List.mem_append.1 hc).elim (hfront c) (hback c)
  rw [paddedIndex_of_le hn, hvalue, ← digitsValue_append]
  apply natDigits_digitsValue hdigits (by simp [hne])
  rwa [List.head?_append_of_ne_nil _ hne]

end

namespace Chirality

/-- Some digits stand at the end of the first index of `d` and at the start of the second index of
`c`. Without them these two indices are the first one of `c` and the second one of `d`. -/
def PassesDigits (c d : Chirality) : Prop :=
  ∃ moved, 0 < moved ∧ 10 ≤ c.n ∧ d.n = c.n * 10 ^ decimalPlaces moved + moved ∧
    c.m = moved * 10 ^ max 2 (decimalPlaces d.m) + d.m

variable {c d : Chirality}

theorem eq_of_indices (hn : c.n = d.n) (hm : c.m = d.m) : c = d := by
  cases c
  cases d
  exact (mk.injEq ..).mpr ⟨hn, hm⟩

/-- Digits pass between indices of three digits only. -/
theorem PassesDigits.le (h : c.PassesDigits d) : 100 ≤ d.n ∧ 100 ≤ c.m := by
  obtain ⟨moved, hmoved, hn, hdn, hcm⟩ := h
  have hshift : 10 ^ 1 ≤ 10 ^ decimalPlaces moved :=
    Nat.pow_le_pow_right (by decide) Nat.length_toDigits_pos
  have hborder : 10 ^ 2 ≤ 10 ^ max 2 (decimalPlaces d.m) :=
    Nat.pow_le_pow_right (by decide) (le_max_left _ _)
  have hfirst := Nat.mul_le_mul hn hshift
  have hsecond := Nat.mul_le_mul hmoved hborder
  omega

/-- Where digits pass from one index to the other, the border between what is written does. -/
theorem PassesDigits.exists_digits (h : c.PassesDigits d) : ∃ cs, cs ≠ [] ∧
    (paddedIndex d.n).toList = (paddedIndex c.n).toList ++ cs ∧
      (paddedIndex c.m).toList = cs ++ (paddedIndex d.m).toList := by
  obtain ⟨hfirst, hsecond⟩ := h.le
  obtain ⟨moved, hmoved, hn, hdn, hcm⟩ := h
  have hdigits : ∀ x ∈ natDigits moved, x.isDigit = true := fun _ hx => isDigit_of_mem_natDigits hx
  refine ⟨natDigits moved, natDigits_ne_nil moved, ?_, ?_⟩
  · apply paddedIndex_eq_append (fun _ hx => isDigit_of_mem_paddedIndex hx) hdigits
    · intro hnil
      have hlength := length_paddedIndex c.n
      rw [hnil, List.length_nil] at hlength
      omega
    · rw [Ne, head?_paddedIndex]
      omega
    · omega
    · rw [digitsValue_paddedIndex, digitsValue_natDigits, hdn]
      rfl
  · apply paddedIndex_eq_append hdigits (fun _ hx => isDigit_of_mem_paddedIndex hx)
      (natDigits_ne_nil moved) (head?_natDigits hmoved)
    · omega
    · rw [digitsValue_paddedIndex, digitsValue_natDigits, length_paddedIndex, hcm]

/-- The other way around: neither of the two longer indices has been padded, so that the digits
between the borders are those of a number. -/
theorem passesDigits_of_digits {cs : List Char} (hcs : cs ≠ [])
    (hn : (paddedIndex d.n).toList = (paddedIndex c.n).toList ++ cs)
    (hm : (paddedIndex c.m).toList = cs ++ (paddedIndex d.m).toList) : c.PassesDigits d := by
  have hdigits : ∀ x ∈ cs, x.isDigit = true := fun x hx =>
    isDigit_of_mem_paddedIndex (n := c.m) (by simp [hm, hx])
  have hlength : 0 < cs.length := List.length_pos_iff.2 hcs
  have hcn := length_paddedIndex c.n
  have hdm := length_paddedIndex d.m
  have hhead : cs.head? ≠ some '0' := head?_of_paddedIndex_eq_append hm hcs (by omega)
  have hplaces : cs.length = decimalPlaces (digitsValue cs) := by
    rw [decimalPlaces, natDigits_digitsValue hdigits hcs hhead]
  refine ⟨digitsValue cs, digitsValue_pos hdigits hcs hhead, ?_, ?_, ?_⟩
  · have hfirst := head?_of_paddedIndex_eq_append hn (List.length_pos_iff.1 (by omega)) (by omega)
    rw [Ne, head?_paddedIndex] at hfirst
    omega
  · have hvalue := congrArg digitsValue hn
    rwa [digitsValue_append, digitsValue_paddedIndex, digitsValue_paddedIndex, hplaces] at hvalue
  · have hvalue := congrArg digitsValue hm
    rwa [digitsValue_append, digitsValue_paddedIndex, digitsValue_paddedIndex, hdm] at hvalue

/-- **Digits pass from one index to the other** just when the border between them does in what is
written. -/
theorem passesDigits_iff : c.PassesDigits d ↔ ∃ cs, cs ≠ [] ∧
    (paddedIndex d.n).toList = (paddedIndex c.n).toList ++ cs ∧
      (paddedIndex c.m).toList = cs ++ (paddedIndex d.m).toList := by
  constructor
  · exact PassesDigits.exists_digits
  · rintro ⟨cs, hcs, hn, hm⟩
    exact passesDigits_of_digits hcs hn hm

/-- Indices that are written alike are the same, or digits pass from one to the other. -/
theorem paddedIndices_eq_iff :
    (paddedIndex c.n).toList ++ (paddedIndex c.m).toList =
        (paddedIndex d.n).toList ++ (paddedIndex d.m).toList ↔
      c = d ∨ c.PassesDigits d ∨ d.PassesDigits c := by
  rw [List.append_eq_append_iff, passesDigits_iff, passesDigits_iff]
  constructor
  · have same {c d : Chirality} (hn : (paddedIndex d.n).toList = (paddedIndex c.n).toList)
        (hm : (paddedIndex c.m).toList = (paddedIndex d.m).toList) : c = d := by
      have hn' := congrArg digitsValue hn
      have hm' := congrArg digitsValue hm
      rw [digitsValue_paddedIndex, digitsValue_paddedIndex] at hn' hm'
      exact eq_of_indices hn'.symm hm'
    rintro (⟨cs, hn, hm⟩ | ⟨cs, hn, hm⟩)
    · by_cases hcs : cs = []
      · subst hcs
        exact .inl (same (by simpa using hn) hm)
      · exact .inr (.inl ⟨cs, hcs, hn, hm⟩)
    · by_cases hcs : cs = []
      · subst hcs
        exact .inl (same (by simpa using hn) hm).symm
      · exact .inr (.inr ⟨cs, hcs, hn, hm⟩)
  · rintro (rfl | ⟨cs, -, hn, hm⟩ | ⟨cs, -, hn, hm⟩)
    · exact .inl ⟨[], by simp⟩
    · exact .inl ⟨cs, hn, hm⟩
    · exact .inr ⟨cs, hn, hm⟩

end Chirality

/-! ## Names -/

/-- The indices of the tubes are written alike, and there are as many cells. -/
def Tube.SharesName {α : Type} (t u : Tube α) : Prop :=
  t.cells = u.cells ∧ (t.chirality = u.chirality ∨ t.chirality.PassesDigits u.chirality ∨
    u.chirality.PassesDigits t.chirality)

theorem Design.fileStem_tube (t : Tube Double) : (Design.tube t).fileStem =
    paddedIndex t.chirality.n ++ paddedIndex t.chirality.m ++ "_" ++ pluralize t.cells "cell" :=
  rfl

section

variable {mark : Char}

/-- Indices have digits only. -/
theorem notMem_paddedIndex (hmark : mark.isDigit = false) (n : Nat) :
    mark ∉ (paddedIndex n).toList :=
  fun h => ne_of_isDigit (isDigit_of_mem_paddedIndex h) hmark rfl

theorem notMem_toString (hmark : mark.isDigit = false) (n : Nat) : mark ∉ (toString n).toList :=
  fun h => ne_of_isDigit (isDigit_of_mem_toString h) hmark rfl

/-- A number of cells has digits and the letters of the word. -/
theorem notMem_pluralize_cell (hdigit : mark.isDigit = false) (hletter : mark ∉ "cells".toList)
    (count : Nat) : mark ∉ (pluralize count "cell").toList := by
  have hletters : mark ∉ "cell".toList := fun h => hletter (List.mem_append_left "s".toList h)
  have hsuffix : mark ∉ (if count = 1 then "" else "s").toList := by
    intro h
    split at h
    · cases h
    · exact hletter (List.mem_append_right "cell".toList h)
  simp only [pluralize, String.toList_append, List.mem_append, not_or]
  exact ⟨⟨notMem_toString hdigit count, hletters⟩, hsuffix⟩

end

theorem toString_nat_injective {a b : Nat} (h : (toString a).toList = (toString b).toList) :
    a = b := by
  have hread := congrArg readDigits h
  rw [readDigits_toString, readDigits_toString] at hread
  exact Option.some.inj hread

/-- A number of cells is told from every other one. -/
theorem pluralize_cell_injective {a b : Nat}
    (h : (pluralize a "cell").toList = (pluralize b "cell").toList) : a = b := by
  simp only [pluralize, String.toList_append, List.append_assoc] at h
  have hc : 'c'.isDigit = false := by decide
  exact toString_nat_injective
    ((Text.append_mark_inj (notMem_toString hc a) (notMem_toString hc b)).1 h).1

/-- **When two tubes have the same name.** -/
theorem Design.fileStem_tube_eq_iff {t u : Tube Double} :
    (Design.tube t).fileStem = (Design.tube u).fileStem ↔ t.SharesName u := by
  have hmark (t : Tube Double) :
      '_' ∉ (paddedIndex t.chirality.n).toList ++ (paddedIndex t.chirality.m).toList := by
    rw [List.mem_append, not_or]
    exact ⟨notMem_paddedIndex (by decide) _, notMem_paddedIndex (by decide) _⟩
  have hparts (t : Tube Double) : (Design.tube t).fileStem.toList =
      ((paddedIndex t.chirality.n).toList ++ (paddedIndex t.chirality.m).toList) ++
        '_' :: (pluralize t.cells "cell").toList := by
    simp [fileStem_tube]
  rw [← String.toList_inj, hparts, hparts, Text.append_mark_inj (hmark t) (hmark u),
    Chirality.paddedIndices_eq_iff, and_comm, Tube.SharesName]
  refine and_congr_left fun _ => ?_
  constructor
  · exact pluralize_cell_injective
  · rintro hcells
    rw [hcells]

theorem Design.fileStem_flat (t : FlatTube Double) : (Design.flat t).fileStem =
    "unrolled_" ++ t.chirality.text ++ "_" ++ pluralize t.cellsAround "cell" ++ "x" ++
      pluralize t.cellsAlong "cell" :=
  rfl

/-- **An unrolled tube is known by its name**, in which a comma stands between the indices. -/
theorem Design.fileStem_flat_eq_iff {t u : FlatTube Double} :
    (Design.flat t).fileStem = (Design.flat u).fileStem ↔ t.chirality = u.chirality ∧
      t.cellsAround = u.cellsAround ∧ t.cellsAlong = u.cellsAlong := by
  have hparts (t : FlatTube Double) : (Design.flat t).fileStem.toList = "unrolled_(".toList ++
      ((toString t.chirality.n).toList ++ ',' :: ((toString t.chirality.m).toList ++ ')' :: ('_' ::
        ((pluralize t.cellsAround "cell").toList ++ 'x' ::
          (pluralize t.cellsAlong "cell").toList)))) := by
    simp [fileStem_flat, Chirality.text]
  constructor
  · intro h
    have hcomma (k : Nat) : ',' ∉ (toString k).toList := notMem_toString (by decide) k
    have hclosing (k : Nat) : ')' ∉ (toString k).toList := notMem_toString (by decide) k
    have htimes (k : Nat) : 'x' ∉ (pluralize k "cell").toList :=
      notMem_pluralize_cell (by decide) (by decide) k
    have htext := congrArg String.toList h
    rw [hparts, hparts, List.append_cancel_left_eq, Text.append_mark_inj (hcomma _) (hcomma _),
      Text.append_mark_inj (hclosing _) (hclosing _), List.cons.injEq,
      Text.append_mark_inj (htimes _) (htimes _)] at htext
    obtain ⟨hn, hm, -, haround, halong⟩ := htext
    exact ⟨Chirality.eq_of_indices (toString_nat_injective hn) (toString_nat_injective hm),
      pluralize_cell_injective haround, pluralize_cell_injective halong⟩
  · rintro ⟨hchirality, haround, halong⟩
    rw [← String.toList_inj, hparts, hparts, hchirality, haround, halong]

/-- With indices below a hundred a name belongs to one tube. -/
theorem Tube.sharesName_iff_of_lt {α : Type} {t u : Tube α} (hn : t.chirality.n < 100)
    (hm : t.chirality.m < 100) :
    t.SharesName u ↔ t.cells = u.cells ∧ t.chirality = u.chirality := by
  unfold SharesName
  constructor
  · rintro ⟨hcells, hsame | hpass | hpass⟩
    · exact ⟨hcells, hsame⟩
    · have := hpass.le
      omega
    · have := hpass.le
      omega
  · rintro ⟨hcells, hsame⟩
    exact ⟨hcells, .inl hsame⟩

/-! ## Saved files -/

namespace Workshop

open Generator (SaveRequest)

theorem files_write (w : Workshop) (request : SaveRequest) :
    (w.write request).2.files = w.files ∨
      ∃ text, w.files.write? (w.path request) text = some (w.write request).2.files := by
  rw [write_eq]
  dsimp only
  obtain ⟨text, hrefused⟩ | ⟨f, encode, -, -, hwritten⟩ := writeStructure_cases FileTree.access
    (w.path request) (w.readied request).generator.atoms.atoms request.format (w.comment request)
  · rw [hrefused]
    exact .inl rfl
  · rw [hwritten, run_writeText]
    cases hnext : w.files.write? (w.path request)
      (encode (w.readied request).generator.atoms.atoms (w.comment request)) with
    | none => exact .inl rfl
    | some next => exact .inr ⟨_, hnext⟩

/-- **A save touches one file at most**, the one at its path. -/
theorem files_save (w : Workshop) (request : SaveRequest) :
    (w.save request).2.files = w.files ∨
      ∃ text, w.files.write? (w.path request) text = some (w.save request).2.files := by
  rw [save_eq]
  split
  · have hdesign := w.design_make true
    have hfiles : (w.make true).2.files = w.files := rfl
    split
    · rename_i e w' hmade
      rw [hmade] at hfiles
      exact .inl hfiles
    · rename_i u w' hmade
      rw [hmade] at hfiles hdesign
      have hpath : w'.path request = w.path request := by
        unfold path
        rw [hdesign]
      rw [← hfiles, ← hpath]
      exact w'.files_write request
  · exact w.files_write request

end Workshop

/-- Whatever has been made by a design and is saved without a name of its own, the file at a path
stays as it is. -/
def Design.LeavesAlone (design : Design Double) (path : String) : Prop :=
  ∀ (w : Workshop) (request : Generator.SaveRequest), w.generator.design = design →
    request.name = none → (w.save request).2.files.read? path = w.files.read? path

/-- The name of a tube has digits, small letters and a dash below. -/
theorem Design.notMem_fileStem_tube (t : Tube Double) {mark : Char} (hdigit : mark.isDigit = false)
    (hmark : mark ∉ "_cells".toList) : mark ∉ (tube t).fileStem.toList := by
  have hdash : mark ∉ "_".toList := fun h => hmark (List.mem_append_left "cells".toList h)
  have hcells : mark ∉ "cells".toList := fun h => hmark (List.mem_append_right "_".toList h)
  simp only [fileStem_tube, String.toList_append, List.mem_append, not_or]
  exact ⟨⟨⟨notMem_paddedIndex hdigit _, notMem_paddedIndex hdigit _⟩, hdash⟩,
    notMem_pluralize_cell hdigit hcells _⟩

/-- **Which tubes share a name.** Tubes are called the same just when they have as many cells and
their indices are the same or digits pass from one to the other, which takes indices of three
digits. Then they are saved at the same path in every directory and format. No other tube that is
saved without a name of its own touches the file. -/
theorem Design.tubes_share_path_iff (t u : Tube Double) :
    ((tube t).fileStem = (tube u).fileStem ↔ t.SharesName u) ∧
    (∀ directory format, Generator.resolveOutput none (tube t).fileStem directory format =
      Generator.resolveOutput none (tube u).fileStem directory format ↔ t.SharesName u) ∧
    (¬ t.SharesName u → ∀ directory format, (tube u).LeavesAlone
      (Generator.resolveOutput none (tube t).fileStem directory format)) ∧
    (t.chirality.n < 100 → t.chirality.m < 100 →
      (t.SharesName u ↔ t.cells = u.cells ∧ t.chirality = u.chirality)) := by
  have hslash (t : Tube Double) : '/' ∉ (tube t).fileStem.toList :=
    notMem_fileStem_tube t (by decide) (by decide)
  have hdot (t : Tube Double) : '.' ∉ (tube t).fileStem.toList :=
    notMem_fileStem_tube t (by decide) (by decide)
  refine ⟨fileStem_tube_eq_iff, ?_, ?_, Tube.sharesName_iff_of_lt⟩
  · intro directory format
    rw [← fileStem_tube_eq_iff]
    constructor
    · exact stem_eq_of_outputPath (hslash t) (hslash u) (hdot t) (hdot u)
    · intro h
      rw [h]
  · intro hapart directory format w request hdesign hname
    rcases w.files_save request with hfiles | ⟨text, hwrite⟩
    · rw [hfiles]
    · apply FileTree.read?_write?_of_ne hwrite
      intro place hplace hplace'
      rw [Workshop.path, hname, hdesign] at hplace
      exact hapart (fileStem_tube_eq_iff.1
        (stem_eq_of_locate (hslash t) (hslash u) (hdot t) (hdot u) hplace' hplace))

/-- A tube with three digits in its second index. -/
def tubeOf10By111 : Tube Double :=
  .ofChirality ⟨10, 111, by decide⟩

/-- A tube with three digits in its first index. -/
def tubeOf101By11 : Tube Double :=
  .ofChirality ⟨101, 11, by decide⟩

/-- A workshop for the second tube, in which nothing was made, beside a file of the first one. -/
def besideTubeOf10By111 : Workshop :=
  (Workshop.opened (.tube tubeOf101By11) ⟨[], [(["10111_1cell.xyz"], "(10,111)")]⟩ 0).step .finalize

/-- **A tube replaces another one** that has the same name. -/
theorem Design.tube_replaces_tube :
    tubeOf10By111.chirality ≠ tubeOf101By11.chirality ∧
      (tube tubeOf10By111).fileStem = "10111_1cell" ∧
      (tube tubeOf101By11).fileStem = "10111_1cell" ∧
      besideTubeOf10By111.files.read? "10111_1cell.xyz" = some "(10,111)" ∧
      ∃ w', besideTubeOf10By111.save { comment := some "(101,11)" } =
          (.ok "10111_1cell.xyz", w') ∧
        w'.files.read? "10111_1cell.xyz" = some "0\n(101,11)\n" := by
  have hstem : (tube tubeOf101By11).fileStem = "10111_1cell" := by decide +kernel
  have hpath : besideTubeOf10By111.path { comment := some "(101,11)" } = "10111_1cell.xyz" := by
    change outputPath (tube tubeOf101By11).fileStem none .xyz = _
    rw [hstem]
    rfl
  have hmade : besideTubeOf10By111.generator.stage ≠ .uninitialized := by decide
  have hplace : besideTubeOf10By111.files.locate "10111_1cell.xyz" = some ["10111_1cell.xyz"] :=
    FileTree.locate_of_isFileName (by decide) (by simp) List.not_mem_nil
  have hread : besideTubeOf10By111.files.read? "10111_1cell.xyz" = some "(10,111)" := by
    rw [FileTree.read?, hplace]
    rfl
  have hformat : FileFormat.resolve "10111_1cell.xyz" none = .ok .xyz :=
    resolve_of_extension (by decide +kernel)
  obtain ⟨w', hsave, htext⟩ := Workshop.exists_save hmade hpath hplace hformat rfl
  refine ⟨by decide, by decide +kernel, hstem, hread, w', hsave, ?_⟩
  rw [htext]
  decide +kernel

end Honeycomb
