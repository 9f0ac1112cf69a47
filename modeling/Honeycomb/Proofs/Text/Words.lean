import Mathlib.Data.List.TakeWhile
import Honeycomb.Text.Words

/-!
# Text that was put together

What cutting finds in text that was made of words and of lines.

* `Text.cut_append_cons` — a mark anywhere separates the pieces before it from those behind it.
* `Text.IsWord` — text that cutting at blanks leaves whole. `Text.words_intercalate` — words with
  blanks between them are found again. `Text.words_padLeft`, `Text.words_padRight` — also those of
  columns.
* `Text.lines_flatMap` — lines that each end in a line feed are found again, less the carriage
  returns at their ends.
* `Text.trim_eq_self`, `Text.trim_intercalate` — what trimming leaves alone.
* `Text.IsPadded` — text with blanks around it. `Text.IsPadded.trim_eq`, `Text.isPadded_trim` —
  trimming takes them off, and nothing else.
* `Text.splitAtFirst_append_cons` — the first mark is where text is split.
  `Text.splitAtFirst_eq_some_iff` — and the only place. `Text.afterFirst_eq_some_iff` — the same of
  the leftmost occurrence of a text.
-/

set_option autoImplicit false

namespace Honeycomb.Text

/-! ## Pieces -/

section Pieces

variable {p : Char → Bool} {mark : Char}

/-- Text with a mark in it has a first one. -/
theorem exists_first_mark {cs : List Char} (h : ∃ c ∈ cs, p c = true) :
    ∃ before c after, cs = before ++ c :: after ∧ (∀ x ∈ before, p x = false) ∧ p c = true := by
  induction cs with
  | nil => simp at h
  | cons c cs ih =>
    cases hc : p c with
    | true => exact ⟨[], c, cs, rfl, by simp, hc⟩
    | false =>
      have hrest : ∃ x ∈ cs, p x = true := by simpa [hc] using h
      obtain ⟨before, m, after, rfl, hbefore, hm⟩ := ih hrest
      refine ⟨c :: before, m, after, rfl, ?_, hm⟩
      intro x hx
      rcases List.mem_cons.1 hx with rfl | hx
      · exact hc
      · exact hbefore x hx

/-- A mark separates the pieces before it from the pieces behind it. -/
theorem cut_append_cons (hmark : p mark = true) (cs rest : List Char) :
    cut p (cs ++ mark :: rest) = cut p cs ++ cut p rest := by
  -- each round takes the first piece of `cs`
  induction hn : cs.length using Nat.strongRecOn generalizing cs with
  | ind n ih =>
    by_cases h : ∃ c ∈ cs, p c = true
    · obtain ⟨before, m, after, rfl, hbefore, hm⟩ := exists_first_mark h
      have hshorter : after.length < n := by
        rw [← hn, List.length_append, List.length_cons]
        omega
      rw [List.append_assoc, List.cons_append, cut_append_mark hbefore hm,
        cut_append_mark hbefore hm, ih after.length hshorter after rfl, List.cons_append]
    · have hcs : ∀ c ∈ cs, p c = false := by simpa using h
      rw [cut_append_mark hcs hmark, cut_of_unmarked hcs, List.singleton_append]

/-- Pieces with marks between them are found again. -/
theorem cut_intercalate (hmark : p mark = true) {pieces : List (List Char)} (hne : pieces ≠ [])
    (h : ∀ piece ∈ pieces, ∀ c ∈ piece, p c = false) :
    cut p ([mark].intercalate pieces) = pieces := by
  induction pieces with
  | nil => exact absurd rfl hne
  | cons piece pieces ih =>
    obtain ⟨hpiece, hpieces⟩ := List.forall_mem_cons.1 h
    cases pieces with
    | nil => rw [List.intercalate_singleton, cut_of_unmarked hpiece]
    | cons piece' pieces =>
      rw [List.intercalate_cons_cons, List.append_assoc, List.singleton_append,
        cut_append_mark hpiece hmark, ih (List.cons_ne_nil _ _) hpieces]

theorem cut_ne_nil (cs : List Char) : cut p cs ≠ [] := by
  rw [cut]
  split <;> exact List.cons_ne_nil _ _

/-- The pieces of a text with the marks between them make up the text. -/
theorem intercalate_cut (cs : List Char) : [mark].intercalate (cut (· == mark) cs) = cs := by
  fun_induction cut (· == mark) cs with
  | case1 cs hdrop => exact List.intercalate_singleton
  | case2 cs c rest hdrop ih =>
    obtain ⟨piece, pieces, hpieces⟩ :=
      List.exists_cons_of_ne_nil (cut_ne_nil (p := (· == mark)) rest)
    have hc : c = mark := by
      have hhead := List.head?_dropWhile_not (fun x => !(x == mark)) cs
      simpa [hdrop] using hhead
    rw [hc] at hdrop
    rw [hpieces, List.intercalate_cons_cons, ← hpieces, ih, List.append_assoc,
      List.singleton_append, ← hdrop, List.takeWhile_append_dropWhile]

/-- Pieces that each end in a mark are followed by an empty one. -/
theorem cut_flatMap (hmark : p mark = true) {pieces : List (List Char)}
    (h : ∀ piece ∈ pieces, ∀ c ∈ piece, p c = false) :
    cut p (pieces.flatMap fun piece => piece ++ [mark]) = pieces ++ [[]] := by
  induction pieces with
  | nil => exact cut_of_unmarked (by simp)
  | cons piece pieces ih =>
    have hpiece := h piece List.mem_cons_self
    have hpieces := ih fun piece' hpiece' => h piece' (List.mem_cons_of_mem piece hpiece')
    rw [List.flatMap_cons, List.append_assoc, List.singleton_append,
      cut_append_mark hpiece hmark, hpieces, List.cons_append]

/-- No piece has a mark in it. -/
theorem unmarked_of_mem_cut {cs piece : List Char} (h : piece ∈ cut p cs) :
    ∀ c ∈ piece, p c = false := by
  fun_induction cut p cs with
  | case1 cs hdrop =>
    obtain rfl : piece = cs := List.mem_singleton.1 h
    intro c hc
    simpa using List.dropWhile_eq_nil_iff.1 hdrop c hc
  | case2 cs c rest hdrop ih =>
    rcases List.mem_cons.1 h with rfl | h
    · intro c hc
      simpa using List.mem_takeWhile_imp hc
    · exact ih h

end Pieces

/-! ## Words -/

/-- Text that cutting at blanks leaves whole. -/
structure IsWord (cs : List Char) : Prop where
  ne_nil : cs ≠ []
  isBlank_eq_false : ∀ c ∈ cs, isBlank c = false

theorem IsWord.notMem_of_isBlank {cs : List Char} (h : IsWord cs) {b : Char}
    (hb : isBlank b = true) : b ∉ cs := by
  intro hmem
  rw [h.isBlank_eq_false b hmem] at hb
  cases hb

@[simp] theorem words_nil : words [] = [] := by
  rw [words, cut_of_unmarked (by simp)]
  rfl

theorem IsWord.words_eq {cs : List Char} (h : IsWord cs) : words cs = [cs] := by
  rw [words, cut_of_unmarked h.isBlank_eq_false]
  simpa using h.ne_nil

theorem isWord_of_mem_words {cs w : List Char} (h : w ∈ words cs) : IsWord w := by
  obtain ⟨hpiece, hne⟩ := List.mem_filter.1 h
  exact ⟨by simpa using hne, unmarked_of_mem_cut hpiece⟩

/-- A blank separates words. -/
theorem words_append_cons {b : Char} (hb : isBlank b = true) (cs rest : List Char) :
    words (cs ++ b :: rest) = words cs ++ words rest := by
  rw [words, cut_append_cons hb, List.filter_append]
  rfl

/-- Pieces with blanks between them have the words of each piece. -/
theorem words_intercalate_eq_flatMap (pieces : List (List Char)) :
    words ([' '].intercalate pieces) = pieces.flatMap words := by
  induction pieces with
  | nil => exact words_nil
  | cons piece pieces ih =>
    cases pieces with
    | nil => simp
    | cons piece' pieces =>
      rw [List.intercalate_cons_cons, List.append_assoc, List.singleton_append,
        words_append_cons (by decide), ih]
      rfl

/-- Words with blanks between them are found again. -/
theorem words_intercalate {ws : List (List Char)} (h : ∀ w ∈ ws, IsWord w) :
    words ([' '].intercalate ws) = ws := by
  rw [words_intercalate_eq_flatMap]
  induction ws with
  | nil => rfl
  | cons w ws ih =>
    have hw := h w List.mem_cons_self
    have hws := ih fun w' hw' => h w' (List.mem_cons_of_mem w hw')
    rw [List.flatMap_cons, hw.words_eq, hws, List.singleton_append]

theorem words_append_blanks (cs : List Char) (n : Nat) :
    words (cs ++ List.replicate n ' ') = words cs := by
  induction n with
  | zero => simp
  | succ n ih =>
    rw [List.replicate_succ', ← List.append_assoc, words_append_cons (by decide), ih, words_nil,
      List.append_nil]

theorem words_blanks_append (cs : List Char) (n : Nat) :
    words (List.replicate n ' ' ++ cs) = words cs := by
  cases n with
  | zero => rfl
  | succ n =>
    have hblanks : words (List.replicate n ' ') = [] := by
      simpa using words_append_blanks [] n
    rw [List.replicate_succ', List.append_assoc, List.singleton_append,
      words_append_cons (by decide), hblanks, List.nil_append]

/-- A column has the words of its text. -/
theorem words_padLeft (width : Nat) (s : String) :
    words (padLeft width s).toList = words s.toList := by
  rw [padLeft, String.toList_append, String.toList_ofList, words_blanks_append]

theorem words_padRight (width : Nat) (s : String) :
    words (padRight width s).toList = words s.toList := by
  rw [padRight, String.toList_append, String.toList_ofList, words_append_blanks]

/-- Pieces with blanks between them have no character that no piece has, apart from the blanks. -/
theorem notMem_intercalate {c : Char} (hc : c ≠ ' ') {pieces : List (List Char)}
    (h : ∀ piece ∈ pieces, c ∉ piece) :
    c ∉ [' '].intercalate pieces := by
  induction pieces with
  | nil => simp
  | cons piece pieces ih =>
    have hpiece := h piece List.mem_cons_self
    have hpieces := ih fun piece' hpiece' => h piece' (List.mem_cons_of_mem piece hpiece')
    cases pieces with
    | nil => simpa using hpiece
    | cons piece' pieces =>
      rw [List.intercalate_cons_cons]
      simp [hpiece, hpieces, hc]

/-! ## Lines -/

/-- What a carriage return at the end of a line leaves of it. -/
theorem dropReturn_eq (line : List Char) :
    dropReturn line = line ∨ ∃ kept, line = kept ++ ['\r'] ∧ dropReturn line = kept := by
  unfold dropReturn
  split
  case isTrue h =>
    obtain ⟨kept, rfl⟩ := List.getLast?_eq_some_iff.1 h
    exact .inr ⟨kept, rfl, List.dropLast_concat⟩
  case isFalse => exact .inl rfl

/-- A carriage return is a blank, so that it is no part of a word. -/
theorem words_dropReturn (line : List Char) : words (dropReturn line) = words line := by
  rcases dropReturn_eq line with h | ⟨kept, rfl, h⟩
  · rw [h]
  · rw [h, words_append_cons (by decide), words_nil, List.append_nil]

theorem dropReturn_of_notMem {line : List Char} (h : '\r' ∉ line) : dropReturn line = line := by
  rcases dropReturn_eq line with hline | ⟨kept, rfl, -⟩
  · exact hline
  · simp at h

/-- A carriage return is a blank, so that a line that does not end in a blank keeps its end. -/
theorem dropReturn_of_getLast? {line : List Char} (h : ∀ c ∈ line.getLast?, isBlank c = false) :
    dropReturn line = line := by
  rcases dropReturn_eq line with hline | ⟨kept, rfl, -⟩
  · exact hline
  · have hblank : isBlank '\r' = true := by decide
    rw [h '\r' (by simp)] at hblank
    cases hblank

/-- No line has a line feed in it. -/
theorem feed_notMem_of_mem_lines {cs line : List Char} (h : line ∈ lines cs) : '\n' ∉ line := by
  have hpiece : ∀ piece ∈ (cut (· == '\n') cs).reverse, '\n' ∉ piece := by
    intro piece hpiece hfeed
    have hunmarked := unmarked_of_mem_cut (List.mem_reverse.1 hpiece) '\n' hfeed
    cases hunmarked
  have hdrop : ∀ piece : List Char, '\n' ∉ piece → '\n' ∉ dropReturn piece := by
    intro piece hfeed
    unfold dropReturn
    split
    · exact fun hmem => hfeed (List.dropLast_subset piece hmem)
    · exact hfeed
  unfold lines at h
  split at h
  case h_1 => cases h
  case h_2 last ended hcut =>
    rw [hcut, List.forall_mem_cons] at hpiece
    have hended : ∀ piece ∈ ended.reverse.map dropReturn, '\n' ∉ piece := by
      simpa using fun piece hmem => hdrop piece (hpiece.2 piece hmem)
    dsimp only at h
    split at h
    · exact hended line h
    · rcases List.mem_append.1 h with h | h
      · exact hended line h
      · rw [List.mem_singleton.1 h]
        exact hpiece.1

/-- Lines that each end in a line feed are found again. -/
theorem lines_flatMap {ls : List (List Char)} (h : ∀ line ∈ ls, '\n' ∉ line) :
    lines (ls.flatMap fun line => line ++ ['\n']) = ls.map dropReturn := by
  have hpieces : ∀ line ∈ ls, ∀ c ∈ line, (c == '\n') = false := by
    intro line hline c hc
    rw [beq_eq_false_iff_ne]
    rintro rfl
    exact h line hline hc
  rw [lines, cut_flatMap (by decide) hpieces]
  simp

/-! ## Blanks at the ends -/

theorem trim_cons_blank {b : Char} (hb : isBlank b = true) (cs : List Char) :
    trim (b :: cs) = trim cs := by
  rw [trim, trim, trimStart, List.dropWhile_cons_of_pos hb]
  rfl

theorem trimEnd_append_blank {b : Char} (hb : isBlank b = true) (cs : List Char) :
    trimEnd (cs ++ [b]) = trimEnd cs := by
  simp [trimEnd, hb]

theorem trim_append_blank {b : Char} (hb : isBlank b = true) (cs : List Char) :
    trim (cs ++ [b]) = trim cs := by
  unfold trim trimStart
  rw [List.dropWhile_append]
  split
  case isTrue h => simp [List.isEmpty_iff.1 h, hb]
  case isFalse => exact trimEnd_append_blank hb _

theorem trimEnd_dropReturn (line : List Char) : trimEnd (dropReturn line) = trimEnd line := by
  rcases dropReturn_eq line with h | ⟨kept, rfl, h⟩
  · rw [h]
  · rw [h, trimEnd_append_blank (by decide)]

theorem trim_dropReturn (line : List Char) : trim (dropReturn line) = trim line := by
  rcases dropReturn_eq line with h | ⟨kept, rfl, h⟩
  · rw [h]
  · rw [h, trim_append_blank (by decide)]

/-- Trimming leaves text alone that neither begins nor ends with a blank. -/
theorem trim_eq_self {cs : List Char} (hstart : ∀ c ∈ cs.head?, isBlank c = false)
    (hend : ∀ c ∈ cs.getLast?, isBlank c = false) : trim cs = cs := by
  have hdrop : ∀ l : List Char, (∀ c ∈ l.head?, isBlank c = false) → l.dropWhile isBlank = l := by
    intro l hl
    cases l with
    | nil => rfl
    | cons c l => exact List.dropWhile_cons_of_neg (by simp [hl c rfl])
  have hreverse : ∀ c ∈ cs.reverse.head?, isBlank c = false := by simpa using hend
  rw [trim, trimStart, hdrop cs hstart, trimEnd, hdrop cs.reverse hreverse, List.reverse_reverse]

/-- Trimmed text does not end in a blank. -/
theorem isBlank_getLast?_trim (cs : List Char) : ∀ c ∈ (trim cs).getLast?, isBlank c = false := by
  intro c hc
  have hhead := List.head?_dropWhile_not isBlank (trimStart cs).reverse
  rw [trim, trimEnd, List.getLast?_reverse] at hc
  rw [hc] at hhead
  simpa using hhead

theorem mem_of_mem_trim {cs : List Char} {c : Char} (h : c ∈ trim cs) : c ∈ cs := by
  have hend : c ∈ (trimStart cs).reverse :=
    (List.dropWhile_sublist isBlank).subset (List.mem_reverse.1 h)
  exact (List.dropWhile_sublist isBlank).subset (List.mem_reverse.1 hend)

/-- Trimmed text does not begin with a blank. -/
theorem isBlank_head?_trim (cs : List Char) : ∀ c ∈ (trim cs).head?, isBlank c = false := by
  have hstart : ∀ c ∈ (trimStart cs).head?, isBlank c = false := by
    intro c hc
    have hhead := List.head?_dropWhile_not isBlank cs
    rw [trimStart] at hc
    rw [hc] at hhead
    simpa using hhead
  have hprefix : trim cs <+: trimStart cs := by
    rw [← List.reverse_suffix, trim, trimEnd, List.reverse_reverse]
    exact List.dropWhile_suffix isBlank
  obtain ⟨rest, hrest⟩ := hprefix
  intro c hc
  apply hstart
  rw [← hrest, List.head?_append, hc]
  rfl

/-- Blanks behind are not the first character unless there are only blanks. -/
theorem head?_trim (cs : List Char) : (trim cs).head? = (trimStart cs).head? := by
  have hhead := List.head?_dropWhile_not isBlank cs
  unfold trim
  rw [trimStart] at *
  cases hstart : cs.dropWhile isBlank with
  | nil => rfl
  | cons c rest =>
    have hc : isBlank c = false := by simpa [hstart] using hhead
    by_cases hrest : rest.reverse.dropWhile isBlank = []
    · simp [trimEnd, List.dropWhile_append, hrest, hc]
    · simp [trimEnd, List.dropWhile_append, hrest]

theorem trim_trim (cs : List Char) : trim (trim cs) = trim cs :=
  trim_eq_self (isBlank_head?_trim cs) (isBlank_getLast?_trim cs)

theorem IsWord.head?_append {w : List Char} (h : IsWord w) (rest : List Char) :
    ∀ c ∈ (w ++ rest).head?, isBlank c = false := by
  obtain ⟨c, w', rfl⟩ := List.exists_cons_of_ne_nil h.ne_nil
  intro c' hc'
  obtain rfl : c = c' := by simpa using hc'
  exact h.isBlank_eq_false c List.mem_cons_self

theorem IsWord.getLast?_append {w : List Char} (h : IsWord w) (before : List Char) :
    ∀ c ∈ (before ++ w).getLast?, isBlank c = false := by
  intro c hc
  rw [List.getLast?_append, List.getLast?_eq_some_getLast h.ne_nil, Option.some_or] at hc
  obtain rfl : w.getLast h.ne_nil = c := Option.some.inj hc
  exact h.isBlank_eq_false _ (List.getLast_mem h.ne_nil)

/-- Words with blanks between them end in the last one. -/
theorem exists_intercalate_eq {ws : List (List Char)} (h : ws ≠ []) :
    ∃ before, [' '].intercalate ws = before ++ ws.getLast h := by
  induction ws with
  | nil => exact absurd rfl h
  | cons w ws ih =>
    cases ws with
    | nil => exact ⟨[], List.intercalate_singleton⟩
    | cons w' ws =>
      obtain ⟨before, hbefore⟩ := ih (List.cons_ne_nil w' ws)
      refine ⟨w ++ [' '] ++ before, ?_⟩
      rw [List.intercalate_cons_cons, hbefore, ← List.append_assoc, List.getLast_cons_cons]

/-- Words with blanks between them have no blanks at the ends. -/
theorem trim_intercalate {ws : List (List Char)} (h : ∀ w ∈ ws, IsWord w) :
    trim ([' '].intercalate ws) = [' '].intercalate ws := by
  cases ws with
  | nil => rfl
  | cons w ws =>
    have hfirst : ∃ rest, [' '].intercalate (w :: ws) = w ++ rest := by
      cases ws with
      | nil => exact ⟨[], by simp⟩
      | cons w' ws => exact ⟨_, by rw [List.intercalate_cons_cons, List.append_assoc]⟩
    obtain ⟨rest, hrest⟩ := hfirst
    obtain ⟨before, hbefore⟩ := exists_intercalate_eq (List.cons_ne_nil w ws)
    apply trim_eq_self
    · rw [hrest]
      exact (h w List.mem_cons_self).head?_append rest
    · rw [hbefore]
      exact (h _ (List.getLast_mem _)).getLast?_append before

theorem IsWord.trim_eq {w : List Char} (h : IsWord w) : trim w = w := by
  have htrim := trim_intercalate (List.forall_mem_singleton.2 h)
  rwa [List.intercalate_singleton] at htrim

/-! ## Padding -/

/-- A text with blanks around it. -/
def IsPadded (w cs : List Char) : Prop :=
  ∃ before after, (∀ c ∈ before, isBlank c = true) ∧ (∀ c ∈ after, isBlank c = true) ∧
    cs = before ++ (w ++ after)

theorem trim_blanks_append {gap : List Char} (h : ∀ c ∈ gap, isBlank c = true) (cs : List Char) :
    trim (gap ++ cs) = trim cs := by
  induction gap with
  | nil => rfl
  | cons b gap ih =>
    obtain ⟨hb, hgap⟩ := List.forall_mem_cons.1 h
    rw [List.cons_append, trim_cons_blank hb, ih hgap]

theorem trim_append_blanks {gap : List Char} (h : ∀ c ∈ gap, isBlank c = true) (cs : List Char) :
    trim (cs ++ gap) = trim cs := by
  induction gap generalizing cs with
  | nil => rw [List.append_nil]
  | cons b gap ih =>
    obtain ⟨hb, hgap⟩ := List.forall_mem_cons.1 h
    rw [← List.singleton_append, ← List.append_assoc, ih hgap, trim_append_blank hb]

/-- Trimming takes the blanks off. -/
theorem IsPadded.trim_eq {w cs : List Char} (h : IsPadded w cs)
    (hstart : ∀ c ∈ w.head?, isBlank c = false) (hend : ∀ c ∈ w.getLast?, isBlank c = false) :
    trim cs = w := by
  obtain ⟨before, after, hbefore, hafter, rfl⟩ := h
  rw [trim_blanks_append hbefore, trim_append_blanks hafter, trim_eq_self hstart hend]

theorem IsWord.trim_of_isPadded {w cs : List Char} (hw : IsWord w) (h : IsPadded w cs) :
    trim cs = w :=
  h.trim_eq (by simpa using hw.head?_append []) (by simpa using hw.getLast?_append [])

/-- Padding brings in nothing but blanks. -/
theorem IsPadded.notMem {w cs : List Char} (h : IsPadded w cs) {mark : Char} (hw : mark ∉ w)
    (hmark : isBlank mark = false) : mark ∉ cs := by
  obtain ⟨before, after, hbefore, hafter, rfl⟩ := h
  have hgap : ∀ gap : List Char, (∀ c ∈ gap, isBlank c = true) → mark ∉ gap := by
    intro gap hgap hmem
    rw [hgap mark hmem] at hmark
    cases hmark
  rw [List.mem_append, List.mem_append, not_or, not_or]
  exact ⟨hgap before hbefore, hw, hgap after hafter⟩

/-- Trimming takes nothing but blanks off. -/
theorem isPadded_trim (cs : List Char) : IsPadded (trim cs) cs := by
  refine ⟨cs.takeWhile isBlank, ((trimStart cs).reverse.takeWhile isBlank).reverse, ?_, ?_, ?_⟩
  · exact fun c hc => List.mem_takeWhile_imp hc
  · exact fun c hc => List.mem_takeWhile_imp (List.mem_reverse.1 hc)
  · rw [trim, trimEnd, ← List.reverse_append, List.takeWhile_append_dropWhile, List.reverse_reverse,
      trimStart, List.takeWhile_append_dropWhile]

theorem trim_eq_nil_iff {cs : List Char} : trim cs = [] ↔ ∀ c ∈ cs, isBlank c = true := by
  constructor
  · intro h
    obtain ⟨before, after, hbefore, hafter, hcs⟩ := isPadded_trim cs
    rw [hcs, h, List.nil_append, List.forall_mem_append]
    exact ⟨hbefore, hafter⟩
  · intro h
    rw [← List.append_nil cs, trim_blanks_append h]
    rfl

/-! ## Splitting -/

variable {mark : Char}

theorem bne_of_notMem {cs : List Char} (h : mark ∉ cs) : ∀ c ∈ cs, (c != mark) = true := by
  intro c hc
  rw [bne_iff_ne]
  rintro rfl
  exact h hc

theorem splitAtFirst_of_notMem {cs : List Char} (h : mark ∉ cs) : splitAtFirst mark cs = none := by
  have hne := bne_of_notMem h
  have hdrop : cs.dropWhile (· != mark) = [] := by
    rw [← List.append_nil cs, List.dropWhile_append_of_pos hne, List.dropWhile_nil]
  rw [splitAtFirst, hdrop]

theorem mem_of_splitAtFirst {cs before rest : List Char}
    (h : splitAtFirst mark cs = some (before, rest)) {c : Char} (hc : c ∈ rest) : c ∈ cs := by
  unfold splitAtFirst at h
  split at h
  case h_1 => cases h
  case h_2 m rest' hdrop =>
    obtain ⟨-, rfl⟩ := Prod.mk.inj (Option.some.inj h)
    apply (List.dropWhile_sublist (· != mark)).subset
    rw [hdrop]
    exact List.mem_cons_of_mem m hc

/-- Text is split at the first mark. -/
theorem splitAtFirst_append_cons {cs : List Char} (h : mark ∉ cs) (rest : List Char) :
    splitAtFirst mark (cs ++ mark :: rest) = some (cs, rest) := by
  have hne := bne_of_notMem h
  rw [splitAtFirst, List.dropWhile_append_of_pos hne, List.takeWhile_append_of_pos hne]
  simp

/-- Two texts with a mark each are the same just when their parts before the first mark and behind it
are. -/
theorem append_mark_inj {cs ds rest rest' : List Char} (hcs : mark ∉ cs) (hds : mark ∉ ds) :
    cs ++ mark :: rest = ds ++ mark :: rest' ↔ cs = ds ∧ rest = rest' := by
  constructor
  · intro h
    have hsplit := splitAtFirst_append_cons hcs rest
    rw [h, splitAtFirst_append_cons hds, Option.some.injEq, Prod.mk.injEq] at hsplit
    exact ⟨hsplit.1.symm, hsplit.2.symm⟩
  · rintro ⟨rfl, rfl⟩
    rfl

theorem splitAtFirst_eq_some_iff {cs before rest : List Char} :
    splitAtFirst mark cs = some (before, rest) ↔ cs = before ++ mark :: rest ∧ mark ∉ before := by
  constructor
  · intro h
    unfold splitAtFirst at h
    split at h
    · cases h
    · next c rest' hdrop =>
      cases h
      have hhead := List.head?_dropWhile_not (· != mark) cs
      have hc : c = mark := by simpa [hdrop] using hhead
      refine ⟨?_, fun hmem => ?_⟩
      · rw [hc] at hdrop
        rw [← hdrop, List.takeWhile_append_dropWhile]
      · simpa using List.mem_takeWhile_imp hmem
  · rintro ⟨rfl, hbefore⟩
    exact splitAtFirst_append_cons hbefore rest

/-- Text is cut behind the leftmost occurrence. -/
theorem afterFirst_eq_some_iff {part cs rest : List Char} :
    afterFirst part cs = some rest ↔ ∃ before, cs = before ++ part ++ rest ∧
      ∀ before' rest', cs = before' ++ part ++ rest' → before.length ≤ before'.length := by
  induction cs with
  | nil =>
    cases part with
    | nil => simp [afterFirst, eq_comm]
    | cons c part => simp [afterFirst]
  | cons c cs ih =>
    rw [afterFirst]
    by_cases hpart : part.isPrefixOf (c :: cs) = true
    · obtain ⟨rest', hrest'⟩ := List.isPrefixOf_iff_prefix.1 hpart
      rw [if_pos hpart, ← hrest', List.drop_left, Option.some_inj]
      constructor
      · rintro rfl
        exact ⟨[], rfl, fun _ _ _ => Nat.zero_le _⟩
      · rintro ⟨before, heq, hleast⟩
        have hnil : before = [] := List.eq_nil_of_length_eq_zero (Nat.le_zero.1 (hleast [] rest' rfl))
        rw [hnil, List.nil_append] at heq
        exact List.append_cancel_left heq
    · rw [if_neg hpart, ih]
      -- nothing occurs at the first character, so that every occurrence is one in the rest
      have hstep : ∀ {before rest' : List Char}, c :: cs = before ++ part ++ rest' →
          ∃ before', before = c :: before' ∧ cs = before' ++ part ++ rest' := by
        intro before rest' heq
        cases before with
        | nil =>
          rw [List.nil_append] at heq
          exact absurd (List.isPrefixOf_iff_prefix.2 ⟨rest', heq.symm⟩) hpart
        | cons d before =>
          obtain ⟨rfl, htail⟩ := List.cons.inj heq
          exact ⟨before, rfl, htail⟩
      constructor
      · rintro ⟨before, rfl, hleast⟩
        refine ⟨c :: before, rfl, fun before' rest' heq => ?_⟩
        obtain ⟨before', rfl, htail⟩ := hstep heq
        exact Nat.succ_le_succ (hleast before' rest' htail)
      · rintro ⟨before, heq, hleast⟩
        obtain ⟨before, rfl, htail⟩ := hstep heq
        refine ⟨before, htail, fun before' rest' htail' => ?_⟩
        exact Nat.le_of_succ_le_succ (hleast (c :: before') rest' (congrArg (List.cons c) htail'))

end Honeycomb.Text
