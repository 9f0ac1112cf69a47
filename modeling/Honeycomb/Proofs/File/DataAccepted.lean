import Mathlib
import Honeycomb.Proofs.Element
import Honeycomb.Proofs.File.DataRoundTrip
import Honeycomb.Proofs.Outcome

/-!
# What a LAMMPS data file says

Facts about every text that the reader accepts.

* `Draft.IsSound` — of what has been read, ids, molecules and types are counts and labels can be
  written. `Draft.isSound_addLine`, `Draft.isSound_addLines` — every line keeps it so.
* `read_cases` — what the reader gives for a text.

Principal results: `isStorable_of_read` — the atoms of a file can be written to a data file again;
`element_eq_of_read` — atoms of one type are of one element.
-/

set_option autoImplicit false

namespace Honeycomb.LammpsData

namespace Draft

variable {d d' : Draft} {n : Nat} {lines : List (List Char)}

/-- Of what has been read, ids, molecules and types are counts, and labels can be written. -/
structure IsSound (d : Draft) : Prop where
  counts : ∀ a ∈ d.atomLines, a.id < 2 ^ 64 ∧ a.molecule < 2 ^ 64 ∧ a.type < 2 ^ 64
  labels : ∀ (t : Nat) (m : MassLine) (label : String), d.masses[t]? = some m →
    m.label = some label → IsLabel label

theorem isSound_empty : IsSound {} := by
  refine ⟨?_, ?_⟩
  · intro a ha
    cases ha
  · intro t m label hm
    have hnone : (∅ : Std.TreeMap Nat MassLine)[t]? = none := Std.TreeMap.getElem?_emptyc
    rw [hnone] at hm
    cases hm

/-- Sections that were not touched are as sound as before. -/
theorem IsSound.of_eq (h : d.IsSound) (hatomLines : d'.atomLines = d.atomLines)
    (hmasses : d'.masses = d.masses) : d'.IsSound := by
  refine ⟨?_, ?_⟩
  · rw [hatomLines]
    exact h.counts
  · rw [hmasses]
    exact h.labels

theorem exists_of_readField {β : Type} {parse : List Char → Option β} {fields : List (List Char)}
    {i : Nat} {what : String} {b : β} (h : readField parse n fields i what = .ok b) :
    ∃ field, parse field = some b := by
  unfold readField at h
  split at h
  case h_1 => cases h
  case h_2 field _ =>
    split at h
    case h_1 b' hparse => exact ⟨field, by rw [hparse, Except.ok.inj h]⟩
    case h_2 => cases h

theorem lt_of_readField {fields : List (List Char)} {i : Nat} {what : String} {k : Nat}
    (h : readField readCount n fields i what = .ok k) : k < 2 ^ 64 := by
  obtain ⟨field, hfield⟩ := exists_of_readField h
  exact lt_of_readCount hfield

/-- The header is no part of the sections. -/
theorem sections_of_addHeader {content : List Char} {fields : List (List Char)}
    (h : d.addHeader n content fields = .ok d') :
    d'.atomLines = d.atomLines ∧ d'.masses = d.masses := by
  have hset : ∀ {β : Type} {x : Except (Error Double) β} {f : β → Draft},
      x.map f = .ok d' → (∀ b, (f b).atomLines = d.atomLines ∧ (f b).masses = d.masses) →
        d'.atomLines = d.atomLines ∧ d'.masses = d.masses := by
    intro β x f hx hf
    obtain ⟨b, -, rfl⟩ := map_eq_ok_iff.1 hx
    exact hf b
  have hkeep : Except.ok (ε := Error Double) d = .ok d' →
      d'.atomLines = d.atomLines ∧ d'.masses = d.masses := by
    intro hd
    obtain rfl := Except.ok.inj hd
    exact ⟨rfl, rfl⟩
  unfold addHeader at h
  dsimp only at h
  split_ifs at h
  · exact hkeep h
  · exact hset h fun _ => ⟨rfl, rfl⟩
  · exact hset h fun _ => ⟨rfl, rfl⟩
  · exact hset h fun _ => ⟨rfl, rfl⟩
  · exact hset h fun _ => ⟨rfl, rfl⟩
  · exact hkeep h

/-- A label is what stands behind the hash sign, without blanks around it. -/
theorem isLabel_of_splitRemark {text content remark : List Char} (hline : '\n' ∉ text)
    (h : splitRemark text = (content, some remark)) (hne : remark ≠ []) :
    IsLabel (String.ofList remark) := by
  unfold splitRemark at h
  split at h
  case h_1 before rest hsplit =>
    obtain ⟨-, hremark⟩ := Prod.mk.inj h
    obtain rfl := Option.some.inj hremark
    refine ⟨?_, ?_, ?_⟩
    · rwa [String.toList_ofList]
    · rw [String.toList_ofList, Text.trim_trim]
    · rw [String.toList_ofList]
      exact fun hfeed => hline (Text.mem_of_splitAtFirst hsplit (Text.mem_of_mem_trim hfeed))
  case h_2 => cases h

theorem isSound_addMass (h : d.IsSound) {text content : List Char} {remark : Option (List Char)}
    (hline : '\n' ∉ text) (hsplit : splitRemark text = (content, remark))
    {fields : List (List Char)} (hadd : d.addMass n fields remark = .ok d') : d'.IsSound := by
  simp only [addMass, bind_eq_ok_iff] at hadd
  obtain ⟨type, -, mass, -, hd⟩ := hadd
  obtain rfl := Except.ok.inj hd
  refine ⟨h.counts, ?_⟩
  intro t m label hm hlabel
  rw [Std.TreeMap.getElem?_insert] at hm
  split at hm
  case isTrue =>
    obtain rfl := Option.some.inj hm
    obtain ⟨rest, hrest, rfl⟩ := Option.map_eq_some_iff.1 hlabel
    obtain ⟨rfl, hne⟩ := Option.filter_eq_some_iff.1 hrest
    exact isLabel_of_splitRemark hline hsplit (by simpa using hne)
  case isFalse => exact h.labels t m label hm hlabel

theorem counts_of_readAtomLine {fields : List (List Char)} {a : AtomLine}
    (h : readAtomLine n fields = .ok a) : a.id < 2 ^ 64 ∧ a.molecule < 2 ^ 64 ∧ a.type < 2 ^ 64 := by
  unfold readAtomLine at h
  split at h
  case isTrue => cases h
  case isFalse =>
    simp only [bind_eq_ok_iff] at h
    obtain ⟨id, hid, molecule, hmolecule, type, htype, _, -, _, -, _, -, _, -, ha⟩ := h
    obtain rfl := Except.ok.inj ha
    exact ⟨lt_of_readField hid, lt_of_readField hmolecule, lt_of_readField htype⟩

/-- **A line that is read keeps what has been read sound**, in whatever section it stands. -/
theorem isSound_addLine (h : d.IsSound) {text : List Char} (hline : '\n' ∉ text)
    (hadd : d.addLine n text = .ok d') : d'.IsSound := by
  unfold addLine at hadd
  split at hadd
  case h_1 =>
    obtain rfl := Except.ok.inj hadd
    exact h
  case h_2 c rest remark hsplit =>
    split at hadd
    case isTrue =>
      obtain rfl := Except.ok.inj hadd
      exact h.of_eq rfl rfl
    case isFalse =>
      unfold addContent at hadd
      dsimp only at hadd
      split at hadd
      case h_1 =>
        obtain ⟨hatomLines, hmasses⟩ := sections_of_addHeader hadd
        exact h.of_eq hatomLines hmasses
      case h_2 => exact isSound_addMass h hline hsplit hadd
      case h_3 =>
        obtain ⟨a, ha, rfl⟩ := map_eq_ok_iff.1 hadd
        refine ⟨?_, h.labels⟩
        rw [List.forall_mem_cons]
        exact ⟨counts_of_readAtomLine ha, h.counts⟩
      case h_4 =>
        obtain ⟨velocity, -, rfl⟩ := map_eq_ok_iff.1 hadd
        exact h.of_eq rfl rfl
      case h_5 =>
        obtain rfl := Except.ok.inj hadd
        exact h

/-- **All lines together do.** -/
theorem isSound_addLines (h : d.IsSound) (hlines : ∀ line ∈ lines, '\n' ∉ line)
    (hadd : d.addLines n lines = .ok d') : d'.IsSound := by
  induction lines generalizing d n with
  | nil =>
    obtain rfl := Except.ok.inj hadd
    exact h
  | cons text more ih =>
    rw [List.forall_mem_cons] at hlines
    unfold addLines at hadd
    split at hadd
    case h_1 => cases hadd
    case h_2 next hnext => exact ih (isSound_addLine h hlines.1 hnext) hlines.2 hadd

/-- An element is a label, the symbol of a known element, or unknown. -/
theorem isLabel_elementOf {m : MassLine} (h : ∀ label, m.label = some label → IsLabel label) :
    IsLabel (elementOf m) := by
  unfold elementOf
  split
  case h_1 label hlabel => exact h label hlabel
  case h_2 =>
    split
    case h_1 e hclosest =>
      exact isLabel_of_isWord (Element.isWord_symbol (Element.mem_table_of_closest? hclosest))
    case h_2 =>
      have hblank : isBlank 'X' = false := by decide
      exact isLabel_of_isWord ⟨by simp, by simpa using hblank⟩

/-- The element of an atom says its type and nothing else of the atom. -/
theorem element_atomOf (a : AtomLine) :
    (d.atomOf a).element = elementOf ((d.masses[(d.atomOf a).type]?).getD ⟨0, none⟩) :=
  rfl

theorem IsSound.isLabel_atomOf (h : d.IsSound) (a : AtomLine) : IsLabel (d.atomOf a).element := by
  rw [element_atomOf]
  apply isLabel_elementOf
  intro label hlabel
  cases hm : d.masses[(d.atomOf a).type]? with
  | none =>
    rw [hm, Option.getD_none] at hlabel
    cases hlabel
  | some m =>
    rw [hm, Option.getD_some] at hlabel
    exact h.labels _ m label hm hlabel

end Draft

variable {text : String} {file : StructureFile}

/-- **What the reader gives**: the atoms of what it knows at the end of the text. -/
theorem read_cases (h : read text = .ok file) :
    ∃ d, ({} : Draft).addLines 2 (Text.lines text.toList).tail = .ok d ∧ d.isComplete = true ∧
      file = ⟨d.atoms, String.ofList (Text.trim ((Text.lines text.toList).headD [])),
        d.lattice?⟩ := by
  simp only [read, bind_eq_ok_iff] at h
  obtain ⟨d, hd, h⟩ := h
  split at h
  case isTrue hcomplete => exact ⟨d, hd, hcomplete, (Except.ok.inj h).symm⟩
  case isFalse => cases h

/-- **The atoms of a data file can be written to a data file again**, however many types, labels and
sections it has. -/
theorem isStorable_of_read (h : read text = .ok file) (hlength : file.atoms.length < 2 ^ 64) :
    IsStorable file.atoms := by
  obtain ⟨d, hd, -, rfl⟩ := read_cases h
  have hlines : ∀ line ∈ (Text.lines text.toList).tail, '\n' ∉ line := fun line hline =>
    Text.feed_notMem_of_mem_lines (List.mem_of_mem_tail hline)
  have hsound := Draft.isSound_addLines Draft.isSound_empty hlines hd
  have hatom : ∀ a ∈ d.atoms, ∃ l ∈ d.atomLines, a = d.atomOf l := by
    intro a ha
    obtain ⟨l, hl, rfl⟩ := List.mem_map.1 ha
    exact ⟨l, List.mem_reverse.1 hl, rfl⟩
  refine ⟨hlength, ?_, ?_, ?_, ?_⟩
  · intro a ha
    obtain ⟨l, hl, rfl⟩ := hatom a ha
    exact (hsound.counts l hl).1
  · intro a ha
    obtain ⟨l, hl, rfl⟩ := hatom a ha
    exact (hsound.counts l hl).2.1
  · intro a ha
    obtain ⟨l, hl, rfl⟩ := hatom a ha
    exact (hsound.counts l hl).2.2
  · intro a ha
    obtain ⟨l, hl, rfl⟩ := hatom a ha
    exact hsound.isLabel_atomOf l

/-- **Atoms of one type are of one element.** -/
theorem element_eq_of_read (h : read text = .ok file) {a b : Atom Double} (ha : a ∈ file.atoms)
    (hb : b ∈ file.atoms) (htype : a.type = b.type) : a.element = b.element := by
  obtain ⟨d, -, -, rfl⟩ := read_cases h
  obtain ⟨l, -, rfl⟩ := List.mem_map.1 ha
  obtain ⟨l', -, rfl⟩ := List.mem_map.1 hb
  rw [Draft.element_atomOf, Draft.element_atomOf, htype]

end Honeycomb.LammpsData
