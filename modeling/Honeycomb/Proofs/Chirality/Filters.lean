import Mathlib
import Honeycomb.Chirality.Property
import Honeycomb.Proofs.Number.Characters
import Honeycomb.Proofs.Outcome
import Honeycomb.Proofs.Text.Words

/-!
# The texts of filters

Which texts are read as a condition on a property of tubes, and which comparison is taken where
several occur in a text.

* `Comparison.spellings` — the seven ways to write a comparison.
* `Comparison.IsFirst` — the comparison that a text is split at: the leftmost one, and the longest
  of several that start in the same place. `splitAtComparison_eq_some_iff` — one scan finds it.
* `Comparison.searchAll` — the same by a search for each spelling; `splitAtComparison_eq_searchAll`.
* `PropertyFilter.IsWrittenAs` — a name, a spelling and a number, with blanks around each.

Principal result: `reads_exactly_conditions` — exactly these texts are read, and the comparison that
is taken is a whole one.
-/

set_option autoImplicit false

namespace Honeycomb

variable {cs before spelling after : List Char} {comparison : Comparison}

namespace Comparison

/-- The seven ways to write a comparison. -/
def spellings : List (List Char × Comparison) :=
  [(['<', '='], atMost), (['>', '='], atLeast), (['!', '='], notEqual), (['=', '='], equal),
    (['<'], less), (['>'], greater), (['='], equal)]

/-- **The comparison that a text is split at**: no spelling occurs farther left, and of those that
occur in the same place none is longer. -/
structure IsFirst (cs before spelling after : List Char) (comparison : Comparison) : Prop where
  spelled : (spelling, comparison) ∈ spellings
  split : cs = before ++ spelling ++ after
  first : ∀ before' spelling' comparison' after', (spelling', comparison') ∈ spellings →
    cs = before' ++ spelling' ++ after' →
      before.length < before'.length ∨
        before.length = before'.length ∧ spelling'.length ≤ spelling.length

/-! ## Spellings -/

/-- A spelling is a character, and an equals sign behind some of them. -/
theorem mem_spellings_iff : (spelling, comparison) ∈ spellings ↔
    ∃ c doubled, ofChar? c doubled = some comparison ∧
      spelling = c :: if doubled then ['='] else [] := by
  constructor
  · intro h
    simp only [spellings, List.mem_cons, Prod.mk.injEq, List.not_mem_nil, or_false] at h
    rcases h with ⟨rfl, rfl⟩ | ⟨rfl, rfl⟩ | ⟨rfl, rfl⟩ | ⟨rfl, rfl⟩ | ⟨rfl, rfl⟩ | ⟨rfl, rfl⟩ |
      ⟨rfl, rfl⟩
    · exact ⟨'<', true, rfl, rfl⟩
    · exact ⟨'>', true, rfl, rfl⟩
    · exact ⟨'!', true, rfl, rfl⟩
    · exact ⟨'=', true, rfl, rfl⟩
    · exact ⟨'<', false, rfl, rfl⟩
    · exact ⟨'>', false, rfl, rfl⟩
    · exact ⟨'=', false, rfl, rfl⟩
  · rintro ⟨c, doubled, h, rfl⟩
    unfold ofChar? at h
    split at h
    case h_5 => cases h; cases doubled <;> decide
    case h_7 => cases h
    all_goals cases h; decide

theorem eq_of_mem_spellings {comparison' : Comparison} (h : (spelling, comparison) ∈ spellings)
    (h' : (spelling, comparison') ∈ spellings) : comparison = comparison' := by
  have hunique : ∀ p ∈ spellings, ∀ q ∈ spellings, p.1 = q.1 → p.2 = q.2 := by decide
  exact hunique _ h _ h' rfl

/-- An equals sign behind a comparison makes it another one, not none. -/
theorem exists_ofChar?_true {c : Char} {doubled : Bool} (h : ofChar? c doubled = some comparison) :
    ∃ comparison', ofChar? c true = some comparison' := by
  unfold ofChar? at h
  split at h
  case h_7 => cases h
  all_goals exact ⟨_, rfl⟩

/-- Where a text starts with a spelling, a comparison is found, and it takes all of the spelling. -/
theorem exists_ofChar?_of_spelled {c : Char} {rest : List Char}
    (hspelled : (spelling, comparison) ∈ spellings) (h : c :: rest = spelling ++ after) :
    (∃ comparison', ofChar? c (rest.head? == some '=') = some comparison') ∧
      spelling.length ≤ (c :: if rest.head? == some '=' then ['='] else []).length := by
  obtain ⟨c', doubled, hchar, rfl⟩ := mem_spellings_iff.1 hspelled
  obtain ⟨rfl, htail⟩ := List.cons.inj h
  cases doubled with
  | true =>
    have hhead : (rest.head? == some '=') = true := by
      rw [htail]
      rfl
    rw [hhead]
    exact ⟨⟨_, hchar⟩, le_rfl⟩
  | false =>
    refine ⟨?_, by simp⟩
    cases rest.head? == some '=' with
    | true => exact exists_ofChar?_true hchar
    | false => exact ⟨_, hchar⟩

/-- There is one such comparison at most. -/
theorem IsFirst.unique {before' spelling' after' : List Char} {comparison' : Comparison}
    (h : IsFirst cs before spelling after comparison)
    (h' : IsFirst cs before' spelling' after' comparison') :
    before = before' ∧ comparison = comparison' ∧ after = after' := by
  have hle := h.first _ _ _ _ h'.spelled h'.split
  have hge := h'.first _ _ _ _ h.spelled h.split
  have heq : before ++ spelling ++ after = before' ++ spelling' ++ after' :=
    h.split.symm.trans h'.split
  rw [List.append_assoc, List.append_assoc] at heq
  obtain ⟨rfl, htail⟩ := List.append_inj heq (by omega)
  obtain ⟨rfl, rfl⟩ := List.append_inj htail (by omega)
  exact ⟨rfl, eq_of_mem_spellings h.spelled h'.spelled, rfl⟩

end Comparison

/-! ## One scan -/

open Comparison

/-- What one scan finds is the first comparison. -/
theorem isFirst_of_splitAtComparison (h : splitAtComparison cs = some (before, comparison, after)) :
    ∃ spelling, IsFirst cs before spelling after comparison := by
  induction cs generalizing before with
  | nil => cases h
  | cons c rest ih =>
    rw [splitAtComparison] at h
    dsimp only at h
    split at h
    case h_1 found hchar =>
      cases h
      refine ⟨_, mem_spellings_iff.2 ⟨c, _, hchar, rfl⟩, ?_, ?_⟩
      · cases hhead : rest.head? == some '=' with
        | false => rfl
        | true =>
          obtain ⟨rest', rfl⟩ := List.head?_eq_some_iff.1 (beq_iff_eq.1 hhead)
          rfl
      · intro before' spelling' comparison' after' hspelled heq
        cases before' with
        | nil => exact .inr ⟨rfl, (exists_ofChar?_of_spelled hspelled heq).2⟩
        | cons d before' => exact .inl (Nat.succ_pos _)
    case h_2 hchar =>
      obtain ⟨⟨before₁, comparison₁, after₁⟩, hrest, heq⟩ := Option.map_eq_some_iff.1 h
      cases heq
      obtain ⟨spelling, hfirst⟩ := ih hrest
      refine ⟨spelling, hfirst.spelled, by rw [hfirst.split]; rfl, ?_⟩
      intro before' spelling' comparison' after' hspelled heq
      cases before' with
      | nil =>
        -- no spelling starts at the first character, which is passed over
        obtain ⟨⟨_, hsome⟩, -⟩ := exists_ofChar?_of_spelled hspelled heq
        rw [hchar] at hsome
        cases hsome
      | cons d before' =>
        have hlength := hfirst.first before' spelling' comparison' after' hspelled
          (List.cons.inj heq).2
        simpa using hlength

/-- One scan finds a comparison if a spelling occurs at all. -/
theorem exists_splitAtComparison (hspelled : (spelling, comparison) ∈ spellings)
    (before after : List Char) :
    ∃ found, splitAtComparison (before ++ spelling ++ after) = some found := by
  induction before with
  | nil =>
    obtain ⟨c, doubled, -, hcons⟩ := mem_spellings_iff.1 hspelled
    obtain ⟨rest, hrest⟩ : ∃ rest, spelling ++ after = c :: rest := ⟨_, by rw [hcons]; rfl⟩
    obtain ⟨⟨found, hfound⟩, -⟩ := exists_ofChar?_of_spelled hspelled hrest.symm
    rw [List.nil_append, hrest, splitAtComparison]
    dsimp only
    rw [hfound]
    exact ⟨_, rfl⟩
  | cons c before ih =>
    obtain ⟨found, hfound⟩ := ih
    rw [List.cons_append, List.cons_append, splitAtComparison]
    dsimp only
    split
    · exact ⟨_, rfl⟩
    · rw [hfound]
      exact ⟨_, rfl⟩

/-- **A text is split at its first comparison.** -/
theorem splitAtComparison_eq_some_iff :
    splitAtComparison cs = some (before, comparison, after) ↔
      ∃ spelling, IsFirst cs before spelling after comparison := by
  constructor
  · exact isFirst_of_splitAtComparison
  · rintro ⟨spelling, hfirst⟩
    obtain ⟨⟨before', comparison', after'⟩, hfound⟩ :=
      exists_splitAtComparison hfirst.spelled before after
    rw [← hfirst.split] at hfound
    obtain ⟨spelling', hfirst'⟩ := isFirst_of_splitAtComparison hfound
    obtain ⟨rfl, rfl, rfl⟩ := hfirst.unique hfirst'
    exact hfound

/-! ## Seven searches -/

namespace Comparison

/-- Where a text occurs first. -/
def placeOf? (part cs : List Char) : Option Nat :=
  (List.range (cs.length + 1)).find? fun i => part.isPrefixOf (cs.drop i)

/-- The first occurrence of each spelling that occurs. -/
def occurrences (cs : List Char) : List (Nat × List Char × Comparison) :=
  spellings.filterMap fun (spelling, comparison) =>
    (placeOf? spelling cs).map fun i => (i, spelling, comparison)

/-- The leftmost occurrence comes first, and of several in one place the longest, which has two
characters. -/
def precedence (occurrence : Nat × List Char × Comparison) : Nat ×ₗ Nat :=
  toLex (occurrence.1, 2 - occurrence.2.1.length)

/-- What stands around the first of all occurrences. -/
def searchAll (cs : List Char) : Option (List Char × Comparison × List Char) :=
  ((occurrences cs).argmin precedence).map fun (i, spelling, comparison) =>
    (cs.take i, comparison, cs.drop (i + spelling.length))

/-- A place is that of the first occurrence. -/
theorem placeOf?_eq_some_iff {part : List Char} {i : Nat} :
    placeOf? part cs = some i ↔
      part <+: cs.drop i ∧ i ≤ cs.length ∧ ∀ j < i, ¬part <+: cs.drop j := by
  rw [placeOf?, List.find?_range_eq_some]
  simp only [List.isPrefixOf_iff_prefix, List.mem_range, Nat.lt_succ_iff, Bool.not_eq_true',
    ← Bool.not_eq_true]

/-- What occurs has a first place. -/
theorem exists_placeOf? (before part after : List Char) :
    ∃ i ≤ before.length, placeOf? part (before ++ part ++ after) = some i := by
  have hoccurs : part <+: (before ++ part ++ after).drop before.length := by
    rw [List.append_assoc, List.drop_left]
    exact List.prefix_append part after
  cases hplace : placeOf? part (before ++ part ++ after) with
  | none =>
    have hrange : before.length < (before ++ part ++ after).length + 1 := by
      simp only [List.length_append]
      omega
    have hnot := List.find?_eq_none.1 hplace _ (List.mem_range.2 hrange)
    exact absurd (List.isPrefixOf_iff_prefix.2 hoccurs) hnot
  | some i =>
    refine ⟨i, ?_, rfl⟩
    by_contra hlt
    exact (placeOf?_eq_some_iff.1 hplace).2.2 _ (Nat.lt_of_not_le hlt) hoccurs

theorem mem_occurrences_iff {i : Nat} : (i, spelling, comparison) ∈ occurrences cs ↔
    (spelling, comparison) ∈ spellings ∧ placeOf? spelling cs = some i := by
  rw [occurrences, List.mem_filterMap]
  constructor
  · rintro ⟨⟨spelling', comparison'⟩, hspelled, heq⟩
    obtain ⟨j, hj, hfields⟩ := Option.map_eq_some_iff.1 heq
    cases hfields
    exact ⟨hspelled, hj⟩
  · rintro ⟨hspelled, hplace⟩
    exact ⟨_, hspelled, Option.map_eq_some_iff.2 ⟨i, hplace, rfl⟩⟩

theorem length_le_two (h : (spelling, comparison) ∈ spellings) : spelling.length ≤ 2 := by
  have hall : ∀ p ∈ spellings, p.1.length ≤ 2 := by decide
  exact hall _ h

/-- The first of all occurrences is the first comparison. -/
theorem isFirst_of_argmin {i : Nat}
    (h : (i, spelling, comparison) ∈ (occurrences cs).argmin precedence) :
    IsFirst cs (cs.take i) spelling (cs.drop (i + spelling.length)) comparison := by
  obtain ⟨hspelled, hplace⟩ := mem_occurrences_iff.1 (List.argmin_mem h)
  obtain ⟨⟨rest, hrest⟩, hi, -⟩ := placeOf?_eq_some_iff.1 hplace
  have htake : (cs.take i).length = i := List.length_take_of_le hi
  refine ⟨hspelled, ?_, ?_⟩
  · rw [← List.drop_drop, ← hrest, List.drop_left, List.append_assoc, hrest,
      List.take_append_drop]
  · intro before' spelling' comparison' after' hspelled' heq
    obtain ⟨j, hj, hplace'⟩ := exists_placeOf? before' spelling' after'
    rw [← heq] at hplace'
    have hle := List.le_of_mem_argmin (mem_occurrences_iff.2 ⟨hspelled', hplace'⟩) h
    have htwo := length_le_two hspelled'
    rw [precedence, precedence, Prod.Lex.toLex_le_toLex] at hle
    dsimp only at hle
    omega

end Comparison

/-- **One scan finds what the seven searches find.** -/
theorem splitAtComparison_eq_searchAll (cs : List Char) :
    splitAtComparison cs = searchAll cs := by
  cases hfirst : (occurrences cs).argmin precedence with
  | some occurrence =>
    rw [searchAll, hfirst]
    exact splitAtComparison_eq_some_iff.2 ⟨_, isFirst_of_argmin hfirst⟩
  | none =>
    rw [searchAll, hfirst]
    cases hsplit : splitAtComparison cs with
    | none => rfl
    | some parts =>
      -- what a scan finds occurs, so that a search finds it too
      obtain ⟨spelling, hspelled, hcs, -⟩ := isFirst_of_splitAtComparison hsplit
      obtain ⟨i, -, hplace⟩ := exists_placeOf? parts.1 spelling parts.2.2
      rw [← hcs] at hplace
      have hmem := mem_occurrences_iff.2 ⟨hspelled, hplace⟩
      rw [List.argmin_eq_none.1 hfirst] at hmem
      cases hmem

/-! ## Conditions -/

/-- **How a condition is written**: the name of a property, a comparison and a number, with blanks
around each. -/
def PropertyFilter.IsWrittenAs (f : PropertyFilter Double) (cs : List Char) : Prop :=
  ∃ left spelling right number, cs = left ++ spelling ++ right ∧
    Text.IsPadded f.property.name.toList left ∧ (spelling, f.comparison) ∈ spellings ∧
      readDouble number = some f.value ∧ Text.IsPadded number right

namespace Comparison

/-- The characters that comparisons are written with. -/
def marks : List Char :=
  ['<', '>', '=', '!']

theorem mem_marks (h : (spelling, comparison) ∈ spellings) : ∀ c ∈ spelling, c ∈ marks := by
  have hall : ∀ p ∈ spellings, ∀ c ∈ p.1, c ∈ marks := by simp [spellings, marks]
  exact hall _ h

theorem isBlank_of_mem_marks {c : Char} (h : c ∈ marks) : isBlank c = false := by
  simp only [marks, List.mem_cons, List.not_mem_nil, or_false] at h
  rcases h with rfl | rfl | rfl | rfl <;> decide

/-- No spelling that starts in the same place is longer if no equals sign follows. -/
theorem length_le_of_append_eq {right spelling' after' : List Char} {comparison' : Comparison}
    (hspelled : (spelling, comparison) ∈ spellings)
    (hspelled' : (spelling', comparison') ∈ spellings) (hright : '=' ∉ right)
    (heq : spelling ++ right = spelling' ++ after') : spelling'.length ≤ spelling.length := by
  obtain ⟨c, doubled, -, rfl⟩ := mem_spellings_iff.1 hspelled
  cases doubled with
  | true => exact length_le_two hspelled'
  | false =>
    have hhead : (right.head? == some '=') = false := by
      rw [beq_eq_false_iff_ne]
      exact fun h => hright (List.mem_of_mem_head? h)
    have hlength := (exists_ofChar?_of_spelled hspelled' heq).2
    rw [List.append_eq, if_neg Bool.false_ne_true, List.nil_append, hhead] at hlength
    exact hlength

/-- A comparison is the first one if there is no mark in front of it and no equals sign behind. -/
theorem isFirst_of_notMem {left right : List Char} (hspelled : (spelling, comparison) ∈ spellings)
    (hleft : ∀ c ∈ marks, c ∉ left) (hright : '=' ∉ right) :
    IsFirst (left ++ spelling ++ right) left spelling right comparison := by
  refine ⟨hspelled, rfl, ?_⟩
  intro before' spelling' comparison' after' hspelled' heq
  rw [List.append_assoc, List.append_assoc, List.append_eq_append_iff] at heq
  rcases heq with ⟨gap, rfl, heq⟩ | ⟨gap, rfl, heq⟩
  · cases gap with
    | nil =>
      exact .inr ⟨by simp, length_le_of_append_eq hspelled hspelled' hright heq⟩
    | cons d gap => exact .inl (by simp)
  · cases gap with
    | nil =>
      exact .inr ⟨by simp, length_le_of_append_eq hspelled hspelled' hright heq.symm⟩
    | cons d gap =>
      -- the other spelling would start with a mark in front of this one
      obtain ⟨c', _, -, rfl⟩ := mem_spellings_iff.1 hspelled'
      obtain ⟨rfl, -⟩ := List.cons.inj heq
      exact absurd (by simp) (hleft _ (mem_marks hspelled' _ List.mem_cons_self))

end Comparison

/-- The names of properties are single words. -/
theorem TubeProperty.isWord_name (p : TubeProperty) : Text.IsWord p.name.toList := by
  refine ⟨?_, ?_⟩
  · cases p <;> simp [name]
  · cases p <;> simp [name] <;> decide

theorem TubeProperty.notMem_name (p : TubeProperty) : ∀ c ∈ marks, c ∉ p.name.toList := by
  cases p <;> simp [marks, name]

theorem TubeProperty.read_eq_ok_iff {α : Type} {s : String} {p : TubeProperty} :
    (TubeProperty.read s : Except (Error α) TubeProperty) = .ok p ↔ p.name = s := by
  have hname : TubeProperty.ofName? s = some p ↔ p.name = s := by
    constructor
    · intro h
      simpa using List.find?_some h
    · rintro rfl
      exact TubeProperty.ofName?_name p
  rw [← hname, TubeProperty.read]
  cases TubeProperty.ofName? s <;> simp

/-- What is read as a condition, part by part. -/
theorem PropertyFilter.read_eq_ok_iff {s : String} {f : PropertyFilter Double} :
    PropertyFilter.read s = .ok f ↔ ∃ before after,
      splitAtComparison s.toList = some (before, f.comparison, after) ∧
        f.property.name.toList = Text.trim before ∧
          readDouble (Text.trim after) = some f.value := by
  unfold PropertyFilter.read
  constructor
  · intro h
    split at h
    · cases h
    · next before comparison after hsplit =>
      obtain ⟨property, hproperty, h⟩ := bind_eq_ok_iff.1 h
      split at h
      · next value hvalue =>
        cases h
        refine ⟨before, after, hsplit, ?_, hvalue⟩
        rw [TubeProperty.read_eq_ok_iff.1 hproperty, String.toList_ofList]
      · cases h
  · rintro ⟨before, after, hsplit, hname, hvalue⟩
    have hproperty : (TubeProperty.read (String.ofList (Text.trim before)) :
        Except (Error Double) TubeProperty) = .ok f.property := by
      rw [TubeProperty.read_eq_ok_iff, ← hname, String.ofList_toList]
    rw [hsplit]
    dsimp only
    rw [hproperty, hvalue]
    rfl

theorem PropertyFilter.isWrittenAs_of_read {s : String} {f : PropertyFilter Double}
    (h : PropertyFilter.read s = .ok f) : f.IsWrittenAs s.toList := by
  obtain ⟨before, after, hsplit, hname, hvalue⟩ := read_eq_ok_iff.1 h
  obtain ⟨spelling, hfirst⟩ := splitAtComparison_eq_some_iff.1 hsplit
  refine ⟨before, spelling, after, Text.trim after, hfirst.split, ?_, hfirst.spelled, hvalue,
    Text.isPadded_trim after⟩
  rw [hname]
  exact Text.isPadded_trim before

/-- Neither the name nor the number of a condition has a mark in it. -/
theorem PropertyFilter.read_of_isWrittenAs {s : String} {f : PropertyFilter Double}
    (h : f.IsWrittenAs s.toList) : PropertyFilter.read s = .ok f := by
  obtain ⟨left, spelling, right, number, hs, hleft, hspelled, hvalue, hright⟩ := h
  have hnumber : '=' ∉ number := by
    intro hmem
    exact (isNumberChar_of_readDouble hvalue '=' hmem).ne (by decide) (by decide) rfl
  have hfirst := isFirst_of_notMem hspelled
    (fun c hc => hleft.notMem (f.property.notMem_name c hc) (isBlank_of_mem_marks hc))
    (hright.notMem hnumber (by decide))
  rw [← hs] at hfirst
  refine read_eq_ok_iff.2 ⟨left, right, splitAtComparison_eq_some_iff.2 ⟨_, hfirst⟩, ?_, ?_⟩
  · rw [f.property.isWord_name.trim_of_isPadded hleft]
  · rw [(isWord_of_readDouble hvalue).trim_of_isPadded hright, hvalue]

/-- **Exactly the texts of conditions are read**, and the comparison that is taken is a whole one: the
leftmost of all that occur in the text and the longest of several in one place, which a search for
each spelling would find as well. -/
theorem reads_exactly_conditions (s : String) :
    (∀ f, PropertyFilter.read s = .ok f ↔ f.IsWrittenAs s.toList) ∧
      (∀ f, PropertyFilter.read s = .ok f →
        ∃ before spelling after, IsFirst s.toList before spelling after f.comparison) ∧
      splitAtComparison s.toList = searchAll s.toList := by
  refine ⟨fun f => ⟨?_, ?_⟩, fun f hread => ?_, ?_⟩
  · exact PropertyFilter.isWrittenAs_of_read
  · exact PropertyFilter.read_of_isWrittenAs
  · obtain ⟨before, after, hsplit, -⟩ := PropertyFilter.read_eq_ok_iff.1 hread
    obtain ⟨spelling, hfirst⟩ := splitAtComparison_eq_some_iff.1 hsplit
    exact ⟨before, spelling, after, hfirst⟩
  · exact splitAtComparison_eq_searchAll s.toList

end Honeycomb
