import Mathlib
import Honeycomb.Selection.Token

/-!
# Texts and their lexemes

* `Closes` — a text closes some parentheses that were opened before it, and all that it opens
  itself; `textToClosing_eq_some_iff` — the arguments of a call are the text in which parentheses
  balance.
* `Lexeme.IsWrittenAs` — the ways to write a lexeme. `Lexeme.EndsBefore` — what follows does not
  belong to it; `scan_of_isWrittenAs`, `isWrittenAs_of_scan` — a scan finds the lexeme that is
  written and ends where it ends.
* `Piece` — a lexeme as it is written, with the blanks in front of it. `IsLayout` — pieces that may
  stand one after another: two that would run into each other are kept apart.
* `tokensFrom_rendered`, `isRenderingFrom_of_tokensFrom` — a text made of pieces has their lexemes,
  and a text that has lexemes is made of pieces.

Principal result: `tokens_eq_ok_iff` — a text has some lexemes at some places just when it is a
rendering of them.
-/

set_option autoImplicit false

namespace Honeycomb.Selection

/-! ## Parentheses -/

/-- A text closes `depth` parentheses more than it opens, and no beginning of it closes more than
that. -/
def Closes (depth : Nat) (cs : List Char) : Prop :=
  (∀ start, start <+: cs → start.count ')' ≤ start.count '(' + depth) ∧
    cs.count ')' = cs.count '(' + depth

/-- Parentheses balance: none is closed that was not opened before, and none stays open. -/
abbrev IsBalanced (cs : List Char) : Prop :=
  Closes 0 cs

theorem closes_nil_iff {depth : Nat} : Closes depth [] ↔ depth = 0 := by
  simp [Closes, eq_comm]

/-- The beginnings of a text are the empty one and those of the rest behind the first
character. -/
theorem forall_prefix_cons_iff {c : Char} {cs : List Char} {q : List Char → Prop} :
    (∀ start, start <+: c :: cs → q start) ↔ q [] ∧ ∀ start, start <+: cs → q (c :: start) := by
  constructor
  · intro h
    exact ⟨h [] List.nil_prefix, fun start hstart => h _ ((List.prefix_cons_inj c).2 hstart)⟩
  · rintro ⟨hnil, hcons⟩ start hstart
    rcases List.prefix_cons_iff.1 hstart with rfl | ⟨rest, rfl, hrest⟩
    · exact hnil
    · exact hcons rest hrest

theorem closes_opening_iff {depth : Nat} {cs : List Char} :
    Closes depth ('(' :: cs) ↔ Closes (depth + 1) cs := by
  have hcount (l : List Char) : ('(' :: l).count '(' = l.count '(' + 1 := List.count_cons_self
  have hother (l : List Char) : ('(' :: l).count ')' = l.count ')' :=
    List.count_cons_of_ne (by decide)
  unfold Closes
  simp only [forall_prefix_cons_iff, hcount, hother, List.count_nil, Nat.zero_le, true_and,
    Nat.add_assoc, Nat.add_comm 1]

theorem not_closes_closing {cs : List Char} : ¬Closes 0 (')' :: cs) := by
  rintro ⟨hstart, -⟩
  have hfirst := hstart [')'] ((List.prefix_cons_inj _).2 List.nil_prefix)
  simp at hfirst

theorem closes_closing_iff {depth : Nat} {cs : List Char} :
    Closes (depth + 1) (')' :: cs) ↔ Closes depth cs := by
  have hcount (l : List Char) : (')' :: l).count ')' = l.count ')' + 1 := List.count_cons_self
  have hother (l : List Char) : (')' :: l).count '(' = l.count '(' :=
    List.count_cons_of_ne (by decide)
  unfold Closes
  simp only [forall_prefix_cons_iff, hcount, hother, List.count_nil, Nat.zero_le, true_and,
    ← Nat.add_assoc, Nat.add_le_add_iff_right, Nat.add_right_cancel_iff]

theorem closes_cons_iff {depth : Nat} {c : Char} {cs : List Char} (hopening : c ≠ '(')
    (hclosing : c ≠ ')') : Closes depth (c :: cs) ↔ Closes depth cs := by
  have hopen (l : List Char) : (c :: l).count '(' = l.count '(' := List.count_cons_of_ne hopening
  have hclose (l : List Char) : (c :: l).count ')' = l.count ')' := List.count_cons_of_ne hclosing
  unfold Closes
  simp only [forall_prefix_cons_iff, hopen, hclose, List.count_nil, Nat.zero_le, true_and]

/-- The text up to the closing parenthesis is what closes the parentheses opened before. -/
theorem textToClosing_eq_some_iff {depth : Nat} {cs arguments : List Char} :
    textToClosing depth cs = some arguments ↔
      Closes depth arguments ∧ ∃ rest, cs = arguments ++ ')' :: rest := by
  induction cs generalizing depth arguments with
  | nil => simp [textToClosing]
  | cons c cs ih =>
    -- the arguments start with `c` unless `c` is the parenthesis that is looked for
    have hcons {d : Nat} (hcloses : ∀ arguments, Closes depth (c :: arguments) ↔ Closes d arguments)
        (hne : Closes depth [] → c ≠ ')') :
        (textToClosing d cs).map (c :: ·) = some arguments ↔
          Closes depth arguments ∧ ∃ rest, c :: cs = arguments ++ ')' :: rest := by
      rw [Option.map_eq_some_iff]
      constructor
      · rintro ⟨found, hfound, rfl⟩
        obtain ⟨hclosed, rest, rfl⟩ := ih.1 hfound
        exact ⟨(hcloses found).2 hclosed, rest, rfl⟩
      · rintro ⟨harguments, rest, hrest⟩
        cases arguments with
        | nil => exact absurd (List.cons.inj hrest).1 (hne harguments)
        | cons c' found =>
          obtain ⟨rfl, rfl⟩ := List.cons.inj hrest
          exact ⟨found, ih.2 ⟨(hcloses found).1 harguments, rest, rfl⟩, rfl⟩
    unfold textToClosing
    split
    · next hopening =>
      subst hopening
      exact hcons (fun _ => closes_opening_iff) fun _ => by decide
    · next hopening =>
      split
      · next hclosing =>
        subst hclosing
        cases depth with
        | zero =>
          cases arguments with
          | nil => simp [closes_nil_iff]
          | cons c' found =>
            have hfirst : ∀ rest, ')' :: cs = c' :: found ++ ')' :: rest → c' = ')' :=
              fun rest h => (List.cons.inj h).1.symm
            constructor
            · intro h
              cases h
            · rintro ⟨harguments, rest, hrest⟩
              rw [hfirst rest hrest] at harguments
              exact absurd harguments not_closes_closing
        | succ depth =>
          exact hcons (fun _ => closes_closing_iff) fun hnil => by
            cases closes_nil_iff.1 hnil
      · next hclosing =>
        exact hcons (fun _ => closes_cons_iff hopening hclosing) fun _ => hclosing

/-! ## Lexemes as they are written -/

/-- One or more characters that can stand in a word. -/
def IsName (cs : List Char) : Prop :=
  cs ≠ [] ∧ ∀ c ∈ cs, isWordChar c = true

theorem isWordChar_iff {c : Char} : isWordChar c = true ↔
    isBlank c = false ∧ c ≠ '(' ∧ c ≠ ')' ∧ isComparisonChar c = false := by
  simp [isWordChar, and_assoc]

namespace Lexeme

/-- **How a lexeme can be written.** Words and the names of calls consist of word characters, the
name of a call is no keyword, and its arguments are a text in which parentheses balance. A
comparison is written by its symbol; one equals sign may stand for two. -/
inductive IsWrittenAs : Lexeme → List Char → Prop where
  | opening : IsWrittenAs opening ['(']
  | closing : IsWrittenAs closing [')']
  | comparison (c : Comparison) : IsWrittenAs (comparison c) c.symbol.toList
  | equalSign : IsWrittenAs (comparison .equal) ['=']
  | word {w : List Char} : IsName w → IsWrittenAs (word (String.ofList w)) w
  | call {name arguments : List Char} :
    IsName name → Keyword.ofWord? (String.ofList name) = none → IsBalanced arguments →
      IsWrittenAs (call (String.ofList name) (String.ofList arguments))
        (name ++ '(' :: (arguments ++ [')']))

/-- What follows does not belong to a lexeme: behind a word comes no word character and, unless the
word is a keyword, no parenthesis; behind a comparison of one character comes no equals sign. -/
def EndsBefore (l : Lexeme) (cs rest : List Char) : Prop :=
  match l with
  | word w => ∀ c ∈ rest.head?, isWordChar c = false ∧ (c = '(' → Keyword.ofWord? w ≠ none)
  | comparison _ => cs.length = 1 → rest.head? ≠ some '='
  | _ => True

theorem scan_comparison {c : Char} (hc : isComparisonChar c = true) (rest : List Char) :
    scan c rest =
      match Comparison.ofChar? c (rest.head? == some '=') with
      | some cmp => .ok (comparison cmp, if rest.head? == some '=' then 1 else 0)
      | none => .error ⟨0, .unexpected .comparison c.toString⟩ := by
  have hopening : c ≠ '(' := by
    rintro rfl
    exact absurd hc (by decide)
  have hclosing : c ≠ ')' := by
    rintro rfl
    exact absurd hc (by decide)
  exact (if_neg hopening).trans ((if_neg hclosing).trans (if_pos hc))

theorem isWrittenAs_of_ofChar? {c : Char} {doubled : Bool} {cmp : Comparison}
    (h : Comparison.ofChar? c doubled = some cmp) :
    (comparison cmp).IsWrittenAs (c :: if doubled then ['='] else []) := by
  unfold Comparison.ofChar? at h
  split at h
  case h_1 => cases h; exact .comparison .less
  case h_2 => cases h; exact .comparison .atMost
  case h_3 => cases h; exact .comparison .greater
  case h_4 => cases h; exact .comparison .atLeast
  case h_5 =>
    cases h
    cases doubled with
    | false => exact .equalSign
    | true => exact .comparison .equal
  case h_6 => cases h; exact .comparison .notEqual
  case h_7 => cases h

/-- A scan from a word character on takes all word characters that follow. -/
theorem scan_name {c : Char} {cs rest : List Char} (hname : IsName (c :: cs))
    (hrest : ∀ x ∈ rest.head?, isWordChar x = false) :
    (scan c (cs ++ rest) = .ok (word (String.ofList (c :: cs)), cs.length) ∧
        (word (String.ofList (c :: cs))).EndsBefore (c :: cs) rest) ∨
      (∃ inner, rest = '(' :: inner ∧ Keyword.ofWord? (String.ofList (c :: cs)) = none ∧
        scan c (cs ++ rest) =
          match textToClosing 0 inner with
          | some arguments =>
            .ok (call (String.ofList (c :: cs)) (String.ofList arguments),
              cs.length + arguments.length + 2)
          | none => .error ⟨cs.length + 1, .unbalanced⟩) := by
  obtain ⟨hc, hcs⟩ := List.forall_mem_cons.1 hname.2
  obtain ⟨-, hopening, hclosing, hcomparison⟩ := isWordChar_iff.1 hc
  have htake : (cs ++ rest).takeWhile isWordChar = cs := by
    rw [List.takeWhile_append_of_pos hcs]
    cases rest with
    | nil => simp
    | cons x rest => simp [hrest x rfl]
  unfold scan
  rw [if_neg hopening, if_neg hclosing, if_neg (by simp [hcomparison])]
  dsimp only
  rw [htake, List.drop_left]
  split
  · next inner =>
    cases hkeyword : Keyword.ofWord? (String.ofList (c :: cs)) with
    | none => exact .inr ⟨inner, rfl, rfl, rfl⟩
    | some keyword =>
      refine .inl ⟨rfl, fun x hx => ⟨hrest x hx, fun _ => ?_⟩⟩
      rw [hkeyword]
      exact Option.some_ne_none keyword
  · next hparenthesis =>
    refine .inl ⟨rfl, fun x hx => ⟨hrest x hx, ?_⟩⟩
    rintro rfl
    obtain ⟨inner, rfl⟩ := List.head?_eq_some_iff.1 hx
    exact absurd rfl (hparenthesis inner)

/-- A word character and the word characters behind it are a name. -/
theorem exists_name {c : Char} (hc : isWordChar c = true) (cs : List Char) :
    ∃ more rest, cs = more ++ rest ∧ IsName (c :: more) ∧
      ∀ x ∈ rest.head?, isWordChar x = false := by
  refine ⟨cs.takeWhile isWordChar, cs.dropWhile isWordChar,
    List.takeWhile_append_dropWhile.symm, ⟨List.cons_ne_nil _ _, ?_⟩, fun x hx => ?_⟩
  · exact List.forall_mem_cons.2 ⟨hc, fun x hx => List.mem_takeWhile_imp hx⟩
  · have hnot := List.head?_dropWhile_not isWordChar cs
    rwa [hx] at hnot

/-- A scan finds the lexeme that is written when what follows does not belong to it. -/
theorem scan_of_isWrittenAs {l : Lexeme} {cs rest : List Char} (h : l.IsWrittenAs cs)
    (hends : l.EndsBefore cs rest) :
    ∃ c more, cs = c :: more ∧ isBlank c = false ∧
      scan c (more ++ rest) = .ok (l, more.length) := by
  -- no equals sign follows a comparison of one character
  have hsingle (c : Char) (cmp : Comparison) (hl : l = comparison cmp) (hcs : cs = [c]) :
      (rest.head? == some '=') = false := by
    subst hl hcs
    simpa [EndsBefore] using hends
  cases h with
  | opening => exact ⟨'(', [], rfl, by decide, rfl⟩
  | closing => exact ⟨')', [], rfl, by decide, rfl⟩
  | comparison cmp =>
    cases cmp with
    | less =>
      refine ⟨'<', [], rfl, by decide, ?_⟩
      rw [List.nil_append, scan_comparison (by decide), hsingle '<' .less rfl rfl]
      rfl
    | greater =>
      refine ⟨'>', [], rfl, by decide, ?_⟩
      rw [List.nil_append, scan_comparison (by decide), hsingle '>' .greater rfl rfl]
      rfl
    | atMost => exact ⟨'<', ['='], rfl, by decide, scan_comparison (by decide) _⟩
    | atLeast => exact ⟨'>', ['='], rfl, by decide, scan_comparison (by decide) _⟩
    | equal => exact ⟨'=', ['='], rfl, by decide, scan_comparison (by decide) _⟩
    | notEqual => exact ⟨'!', ['='], rfl, by decide, scan_comparison (by decide) _⟩
  | equalSign =>
    refine ⟨'=', [], rfl, by decide, ?_⟩
    rw [List.nil_append, scan_comparison (by decide), hsingle '=' .equal rfl rfl]
    rfl
  | word hname =>
    obtain ⟨c, more, rfl⟩ := List.exists_cons_of_ne_nil hname.1
    refine ⟨c, more, rfl, (isWordChar_iff.1 (hname.2 c List.mem_cons_self)).1, ?_⟩
    rcases scan_name hname fun x hx => (hends x hx).1 with ⟨hscan, -⟩ | ⟨inner, rfl, hkeyword, -⟩
    · exact hscan
    · exact absurd hkeyword ((hends '(' rfl).2 rfl)
  | @call name arguments hname hkeyword hbalanced =>
    obtain ⟨c, more, rfl⟩ := List.exists_cons_of_ne_nil hname.1
    refine ⟨c, more ++ '(' :: (arguments ++ [')']), rfl,
      (isWordChar_iff.1 (hname.2 c List.mem_cons_self)).1, ?_⟩
    have hclosed : textToClosing 0 (arguments ++ ')' :: rest) = some arguments :=
      textToClosing_eq_some_iff.2 ⟨hbalanced, rest, rfl⟩
    have hparenthesis : ∀ x ∈ ('(' :: (arguments ++ ')' :: rest)).head?, isWordChar x = false := by
      rintro x ⟨⟩
      decide
    have happend : more ++ '(' :: (arguments ++ [')']) ++ rest =
        more ++ '(' :: (arguments ++ ')' :: rest) := by simp
    rw [happend]
    rcases scan_name hname hparenthesis with ⟨-, hword⟩ | ⟨inner, hinner, -, hscan⟩
    · exact absurd hkeyword ((hword '(' rfl).2 rfl)
    · obtain rfl := (List.cons.inj hinner).2
      rw [hscan, hclosed]
      simp [Nat.add_assoc]

/-- A scan ends where the lexeme that it finds ends. -/
theorem isWrittenAs_of_scan {l : Lexeme} {c : Char} {cs : List Char} {n : Nat}
    (hc : isBlank c = false) (h : scan c cs = .ok (l, n)) :
    ∃ more rest, cs = more ++ rest ∧ n = more.length ∧ l.IsWrittenAs (c :: more) ∧
      l.EndsBefore (c :: more) rest := by
  by_cases hopening : c = '('
  · subst hopening
    cases h
    exact ⟨[], cs, rfl, rfl, .opening, trivial⟩
  by_cases hclosing : c = ')'
  · subst hclosing
    cases h
    exact ⟨[], cs, rfl, rfl, .closing, trivial⟩
  by_cases hcomparison : isComparisonChar c = true
  · rw [scan_comparison hcomparison] at h
    split at h
    · next cmp hcmp =>
      have hwritten := isWrittenAs_of_ofChar? hcmp
      cases hdoubled : cs.head? == some '=' with
      | false =>
        rw [hdoubled] at h hwritten
        cases h
        exact ⟨[], cs, rfl, rfl, hwritten, fun _ => by simpa using hdoubled⟩
      | true =>
        rw [hdoubled] at h hwritten
        cases h
        obtain ⟨rest, rfl⟩ := List.head?_eq_some_iff.1 (beq_iff_eq.1 hdoubled)
        exact ⟨['='], rest, rfl, rfl, hwritten, fun hlength => absurd hlength (by simp)⟩
    · cases h
  · have hword : isWordChar c = true :=
      isWordChar_iff.2 ⟨hc, hopening, hclosing, by simpa using hcomparison⟩
    obtain ⟨more, rest, rfl, hname, hrest⟩ := exists_name hword cs
    rcases scan_name hname hrest with ⟨hscan, hends⟩ | ⟨inner, rfl, hkeyword, hscan⟩
    · rw [hscan] at h
      cases h
      exact ⟨more, rest, rfl, rfl, .word hname, hends⟩
    · rw [hscan] at h
      split at h
      · next arguments harguments =>
        cases h
        obtain ⟨hbalanced, rest, rfl⟩ := textToClosing_eq_some_iff.1 harguments
        refine ⟨more ++ '(' :: (arguments ++ [')']), rest, by simp, by simp [Nat.add_assoc], ?_,
          trivial⟩
        exact .call hname hkeyword hbalanced
      · cases h

end Lexeme

/-- What a lexeme starts with. -/
def Lexeme.StartsWith (c : Char) : Lexeme → Prop
  | opening => c = '('
  | closing => c = ')'
  | comparison _ => isComparisonChar c = true
  | word _ => isWordChar c = true
  | call _ _ => isWordChar c = true

theorem exists_first_symbol (cmp : Comparison) :
    ∃ c more, cmp.symbol.toList = c :: more ∧ isComparisonChar c = true := by
  cases cmp with
  | less => exact ⟨'<', [], rfl, by decide⟩
  | atMost => exact ⟨'<', ['='], rfl, by decide⟩
  | greater => exact ⟨'>', [], rfl, by decide⟩
  | atLeast => exact ⟨'>', ['='], rfl, by decide⟩
  | equal => exact ⟨'=', ['='], rfl, by decide⟩
  | notEqual => exact ⟨'!', ['='], rfl, by decide⟩

theorem Lexeme.IsWrittenAs.exists_first {l : Lexeme} {cs : List Char} (h : l.IsWrittenAs cs) :
    ∃ c more, cs = c :: more ∧ l.StartsWith c := by
  cases h with
  | opening => exact ⟨'(', [], rfl, rfl⟩
  | closing => exact ⟨')', [], rfl, rfl⟩
  | comparison cmp => exact exists_first_symbol cmp
  | equalSign => exact ⟨'=', [], rfl, show isComparisonChar '=' = true by decide⟩
  | word hname =>
    obtain ⟨c, more, rfl⟩ := List.exists_cons_of_ne_nil hname.1
    exact ⟨c, more, rfl, hname.2 c List.mem_cons_self⟩
  | call hname _ _ =>
    obtain ⟨c, more, rfl⟩ := List.exists_cons_of_ne_nil hname.1
    exact ⟨c, _, rfl, hname.2 c List.mem_cons_self⟩

/-! ## Pieces of a text -/

/-- A lexeme as it is written, and the blanks in front of it. -/
structure Piece where
  gap : List Char
  lexeme : Lexeme
  written : List Char

/-- With nothing between them the second piece would be taken for a part of the first: a word or a
call behind a word, a parenthesis behind a word that is no keyword, and a comparison that starts
with an equals sign behind one of a single character. -/
def Piece.RunsInto (p q : Piece) : Prop :=
  match p.lexeme, q.lexeme with
  | .word _, .word _ => True
  | .word _, .call _ _ => True
  | .word w, .opening => Keyword.ofWord? w = none
  | .comparison _, .comparison _ => p.written.length = 1 ∧ q.written.head? = some '='
  | _, _ => False

/-- **Pieces that may stand one after another**: each is a lexeme as it can be written behind some
blanks, and there are blanks between two that would run into each other. -/
structure IsLayout (pieces : List Piece) : Prop where
  gaps : ∀ p ∈ pieces, ∀ c ∈ p.gap, isBlank c = true
  written : ∀ p ∈ pieces, p.lexeme.IsWrittenAs p.written
  apart : pieces.IsChain fun p q => p.RunsInto q → q.gap ≠ []

/-- The text that pieces make up, with some more characters behind. -/
def rendered (pieces : List Piece) (after : List Char) : List Char :=
  (pieces.flatMap fun p => p.gap ++ p.written) ++ after

/-- The lexemes of pieces, each with the number of characters in front of it. -/
def placed (start : Nat) (pieces : List Piece) : List Token :=
  pieces.mapIdx fun i p => ⟨p.lexeme, start + (rendered (pieces.take i) p.gap).length⟩

theorem rendered_cons (p : Piece) (pieces : List Piece) (after : List Char) :
    rendered (p :: pieces) after = p.gap ++ (p.written ++ rendered pieces after) := by
  simp [rendered]

theorem placed_cons (start : Nat) (p : Piece) (pieces : List Piece) :
    placed start (p :: pieces) =
      ⟨p.lexeme, start + p.gap.length⟩ ::
        placed (start + p.gap.length + p.written.length) pieces := by
  unfold placed
  rw [List.mapIdx_cons]
  congr 1
  refine List.mapIdx_eq_mapIdx_iff.2 fun i hi => ?_
  rw [List.take_succ_cons, rendered_cons]
  simp only [List.length_append, Nat.add_assoc]

/-- Blanks belong to no lexeme. -/
theorem endsBefore_of_isBlank {l : Lexeme} {cs rest : List Char}
    (hrest : ∀ c ∈ rest.head?, isBlank c = true) : l.EndsBefore cs rest := by
  cases l with
  | word w =>
    intro c hc
    refine ⟨?_, ?_⟩
    · simp [isWordChar, hrest c hc]
    · rintro rfl
      exact absurd (hrest _ hc) (by decide)
  | comparison cmp =>
    intro _ hequals
    exact absurd (hrest _ hequals) (by decide)
  | _ => trivial

/-- What stands directly behind a piece does not belong to it unless it runs into it. -/
theorem endsBefore_written_iff {p q : Piece} (hq : q.lexeme.IsWrittenAs q.written)
    (rest : List Char) :
    p.lexeme.EndsBefore p.written (q.written ++ rest) ↔ ¬p.RunsInto q := by
  obtain ⟨gap, l, cs⟩ := p
  obtain ⟨gap', l', cs'⟩ := q
  dsimp only at hq ⊢
  obtain ⟨c, more, rfl, hfirst⟩ := hq.exists_first
  cases l with
  | opening => simp [Lexeme.EndsBefore, Piece.RunsInto]
  | closing => simp [Lexeme.EndsBefore, Piece.RunsInto]
  | call name arguments => simp [Lexeme.EndsBefore, Piece.RunsInto]
  | word w =>
    -- a word goes on with word characters, and with a parenthesis it becomes the name of a call
    have hends : (Lexeme.word w).EndsBefore cs (c :: more ++ rest) ↔
        isWordChar c = false ∧ (c = '(' → Keyword.ofWord? w ≠ none) := by
      simp [Lexeme.EndsBefore]
    rw [hends]
    cases l' with
    | opening =>
      obtain rfl : c = '(' := hfirst
      simp [Piece.RunsInto, show isWordChar '(' = false by decide]
    | closing =>
      obtain rfl : c = ')' := hfirst
      simp [Piece.RunsInto, show isWordChar ')' = false by decide]
    | comparison cmp =>
      have hcomparison : isComparisonChar c = true := hfirst
      have hopening : c ≠ '(' := by
        rintro rfl
        exact absurd hcomparison (by decide)
      simp [Piece.RunsInto, isWordChar, hcomparison, hopening]
    | word w' =>
      have hword : isWordChar c = true := hfirst
      simp [Piece.RunsInto, hword]
    | call name arguments =>
      have hword : isWordChar c = true := hfirst
      simp [Piece.RunsInto, hword]
  | comparison cmp =>
    have hends : (Lexeme.comparison cmp).EndsBefore cs (c :: more ++ rest) ↔
        (cs.length = 1 → c ≠ '=') := by
      simp [Lexeme.EndsBefore]
    rw [hends]
    cases l' with
    | comparison cmp' => simp [Piece.RunsInto]
    | opening =>
      obtain rfl : c = '(' := hfirst
      simp [Piece.RunsInto]
    | closing =>
      obtain rfl : c = ')' := hfirst
      simp [Piece.RunsInto]
    | word w =>
      have hequals : c ≠ '=' := by
        rintro rfl
        exact absurd (show isWordChar '=' = true from hfirst) (by decide)
      simp [Piece.RunsInto, hequals]
    | call name arguments =>
      have hequals : c ≠ '=' := by
        rintro rfl
        exact absurd (show isWordChar '=' = true from hfirst) (by decide)
      simp [Piece.RunsInto, hequals]

theorem tokensFrom_gap {gap : List Char} (hgap : ∀ c ∈ gap, isBlank c = true) (start : Nat)
    (rest : List Char) : tokensFrom start (gap ++ rest) = tokensFrom (start + gap.length) rest := by
  induction gap generalizing start with
  | nil => rfl
  | cons c gap ih =>
    obtain ⟨hc, hgap⟩ := List.forall_mem_cons.1 hgap
    rw [List.cons_append, tokensFrom, if_pos hc, ih hgap, List.length_cons, Nat.add_assoc,
      Nat.add_comm 1]

theorem tokensFrom_written {l : Lexeme} {cs rest : List Char} (hl : l.IsWrittenAs cs)
    (hends : l.EndsBefore cs rest) {start : Nat} {ts : List Token}
    (hrest : tokensFrom (start + cs.length) rest = .ok ts) :
    tokensFrom start (cs ++ rest) = .ok (⟨l, start⟩ :: ts) := by
  obtain ⟨c, more, rfl, hc, hscan⟩ := Lexeme.scan_of_isWrittenAs hl hends
  have hnext : start + 1 + more.length = start + (c :: more).length := by
    rw [List.length_cons]
    omega
  rw [List.cons_append, tokensFrom, hc, if_neg Bool.false_ne_true, hscan]
  dsimp only
  rw [List.drop_left, hnext, hrest]

/-- What is behind a piece does not belong to it just when it is kept apart from the next piece. -/
theorem endsBefore_rendered_iff {p : Piece} {pieces : List Piece} {after : List Char}
    (h : IsLayout pieces) (hafter : ∀ c ∈ after, isBlank c = true) :
    p.lexeme.EndsBefore p.written (rendered pieces after) ↔
      ∀ q ∈ pieces.head?, p.RunsInto q → q.gap ≠ [] := by
  cases pieces with
  | nil =>
    have hends : p.lexeme.EndsBefore p.written (rendered [] after) :=
      endsBefore_of_isBlank fun c hc => hafter c (List.mem_of_head? hc)
    simp [hends]
  | cons q pieces =>
    rw [rendered_cons]
    simp only [List.head?_cons, Option.mem_def, Option.some.injEq, forall_eq']
    cases hgap : q.gap with
    | nil =>
      rw [List.nil_append, endsBefore_written_iff (h.written q List.mem_cons_self)]
      simp
    | cons c gap =>
      have hblank : isBlank c = true := h.gaps q List.mem_cons_self c (by simp [hgap])
      have hends : p.lexeme.EndsBefore p.written
          (c :: (gap ++ (q.written ++ rendered pieces after))) := by
        refine endsBefore_of_isBlank ?_
        rintro x ⟨⟩
        exact hblank
      simp [hends]

theorem isLayout_cons_iff {p : Piece} {pieces : List Piece} :
    IsLayout (p :: pieces) ↔ (∀ c ∈ p.gap, isBlank c = true) ∧
      p.lexeme.IsWrittenAs p.written ∧ (∀ q ∈ pieces.head?, p.RunsInto q → q.gap ≠ []) ∧
        IsLayout pieces := by
  constructor
  · rintro ⟨hgaps, hwritten, hapart⟩
    obtain ⟨hgap, hgaps⟩ := List.forall_mem_cons.1 hgaps
    obtain ⟨hp, hwritten⟩ := List.forall_mem_cons.1 hwritten
    obtain ⟨hnext, hapart⟩ := List.isChain_cons.1 hapart
    exact ⟨hgap, hp, hnext, hgaps, hwritten, hapart⟩
  · rintro ⟨hgap, hp, hnext, h⟩
    exact ⟨List.forall_mem_cons.2 ⟨hgap, h.gaps⟩, List.forall_mem_cons.2 ⟨hp, h.written⟩,
      List.isChain_cons.2 ⟨hnext, h.apart⟩⟩

/-! ## Whole texts -/

/-- **A text that is made of pieces has their lexemes.** -/
theorem tokensFrom_rendered {pieces : List Piece} {after : List Char} (h : IsLayout pieces)
    (hafter : ∀ c ∈ after, isBlank c = true) (start : Nat) :
    tokensFrom start (rendered pieces after) = .ok (placed start pieces) := by
  induction pieces generalizing start with
  | nil =>
    have hend := tokensFrom_gap hafter start []
    rw [List.append_nil, tokensFrom] at hend
    exact hend
  | cons p pieces ih =>
    obtain ⟨hgap, hp, hnext, hpieces⟩ := isLayout_cons_iff.1 h
    rw [rendered_cons, placed_cons, tokensFrom_gap hgap]
    exact tokensFrom_written hp ((endsBefore_rendered_iff hpieces hafter).2 hnext)
      (ih hpieces _)

/-- A text is made of pieces that have some lexemes at some places. -/
def IsRenderingFrom (start : Nat) (cs : List Char) (ts : List Token) : Prop :=
  ∃ pieces after, IsLayout pieces ∧ (∀ c ∈ after, isBlank c = true) ∧
    cs = rendered pieces after ∧ ts = placed start pieces

/-- One more blank in front belongs to the gap of the first piece. -/
theorem IsRenderingFrom.cons_blank {start : Nat} {c : Char} {cs : List Char} {ts : List Token}
    (hc : isBlank c = true) (h : IsRenderingFrom (start + 1) cs ts) :
    IsRenderingFrom start (c :: cs) ts := by
  obtain ⟨pieces, after, hlayout, hafter, rfl, rfl⟩ := h
  cases pieces with
  | nil => exact ⟨[], c :: after, hlayout, List.forall_mem_cons.2 ⟨hc, hafter⟩, rfl, rfl⟩
  | cons p pieces =>
    obtain ⟨hgap, hp, hnext, hpieces⟩ := isLayout_cons_iff.1 hlayout
    refine ⟨{ p with gap := c :: p.gap } :: pieces, after, ?_, hafter, ?_, ?_⟩
    · exact isLayout_cons_iff.2 ⟨List.forall_mem_cons.2 ⟨hc, hgap⟩, hp, hnext, hpieces⟩
    · rw [rendered_cons, rendered_cons]
      rfl
    · have hposition : start + (p.gap.length + 1) = start + 1 + p.gap.length := by omega
      rw [placed_cons, placed_cons, List.length_cons, hposition]

/-- One more lexeme in front is a piece without a gap. -/
theorem IsRenderingFrom.cons_written {start : Nat} {l : Lexeme} {cs rest : List Char}
    {ts : List Token} (hl : l.IsWrittenAs cs) (hends : l.EndsBefore cs rest)
    (h : IsRenderingFrom (start + cs.length) rest ts) :
    IsRenderingFrom start (cs ++ rest) (⟨l, start⟩ :: ts) := by
  obtain ⟨pieces, after, hlayout, hafter, rfl, rfl⟩ := h
  let p : Piece := ⟨[], l, cs⟩
  have hnext := (endsBefore_rendered_iff (p := p) hlayout hafter).1 hends
  refine ⟨p :: pieces, after, isLayout_cons_iff.2 ⟨by simp [p], hl, hnext, hlayout⟩, hafter, ?_, ?_⟩
  · rw [rendered_cons]
    rfl
  · rw [placed_cons]
    rfl

/-- **A text that has lexemes is made of pieces.** -/
theorem isRenderingFrom_of_tokensFrom {start : Nat} {cs : List Char} {ts : List Token}
    (h : tokensFrom start cs = .ok ts) : IsRenderingFrom start cs ts := by
  fun_induction tokensFrom start cs generalizing ts with
  | case1 start =>
    cases h
    exact ⟨[], [], ⟨by simp, by simp, .nil⟩, by simp, rfl, rfl⟩
  | case2 start c rest hc ih => exact (ih h).cons_blank hc
  | case3 start c rest hc e hscan => cases h
  | case4 start c rest hc l n hscan e hrest ih => cases h
  | case5 start c rest hc l n hscan found hrest ih =>
    cases h
    have hc : isBlank c = false := by simpa using hc
    obtain ⟨more, rest, rfl, rfl, hl, hends⟩ := Lexeme.isWrittenAs_of_scan hc hscan
    have hnext : start + 1 + more.length = start + (c :: more).length := by
      rw [List.length_cons]
      omega
    rw [List.drop_left, hnext] at ih hrest
    exact (ih hrest).cons_written hl hends

/-- **A text has some lexemes at some places just when it is a rendering of them**: the lexemes are
written one after another, with any blanks in front, between and behind, though not without a blank
between two that would run into each other, and each place is the number of characters in front. -/
theorem tokens_eq_ok_iff (text : String) (ts : List Token) :
    tokens text = .ok ts ↔
      ∃ pieces after, IsLayout pieces ∧ (∀ c ∈ after, isBlank c = true) ∧
        text.toList = rendered pieces after ∧ ts = placed 0 pieces := by
  constructor
  · exact isRenderingFrom_of_tokensFrom
  · rintro ⟨pieces, after, hlayout, hafter, htext, rfl⟩
    rw [tokens, htext]
    exact tokensFrom_rendered hlayout hafter 0

end Honeycomb.Selection
