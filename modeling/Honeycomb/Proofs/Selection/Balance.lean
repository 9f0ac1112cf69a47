import Mathlib
import Honeycomb.Proofs.Selection.Places

/-!
# Selections that are refused for their parentheses

* `closes_append_iff`, `exists_textToClosing` — text in which parentheses balance does not count
  for what is around it, and every parenthesis of such a text has a partner.
* `ClosesGroups` — some tokens close the groups that are open before them;
  `closes_iff_closesGroups` — a text closes as many parentheses as its tokens do.
* `closesGroups_of_derives`, `closesGroups_of_awaits` — parts of selections close what they open,
  and a beginning of a selection leaves its groups open.
* `StopsInGroup` — reading stops inside a group, though not for want of a parenthesis.

Principal result: `isBalanced_iff_of_unbalanced` — the parentheses of a selection that is refused
for them do not balance, unless reading stops inside a group and the parentheses behind close all
groups. `exists_balanced_refused` — such a selection.
-/

set_option autoImplicit false

namespace Honeycomb.Selection

/-! ## Parentheses of a text -/

section

variable {depth : Nat} {cs rest : List Char}

/-- Parentheses that are closed in front of a text are closed before it. -/
theorem closes_append_iff {k : Nat} (h : Closes k cs) :
    Closes (depth + k) (cs ++ rest) ↔ Closes depth rest := by
  induction cs generalizing k with
  | nil =>
    rw [closes_nil_iff.1 h]
    rfl
  | cons c cs ih =>
    rw [List.cons_append]
    by_cases hopening : c = '('
    · subst hopening
      rw [closes_opening_iff, Nat.add_assoc]
      exact ih (closes_opening_iff.1 h)
    by_cases hclosing : c = ')'
    · subst hclosing
      cases k with
      | zero => exact absurd h not_closes_closing
      | succ k =>
        rw [← Nat.add_assoc, closes_closing_iff]
        exact ih (closes_closing_iff.1 h)
    · rw [closes_cons_iff hopening hclosing]
      exact ih ((closes_cons_iff hopening hclosing).1 h)

/-- Text without parentheses balances. -/
theorem isBalanced_of_forall (h : ∀ c ∈ cs, c ≠ '(' ∧ c ≠ ')') : IsBalanced cs := by
  induction cs with
  | nil => exact closes_nil_iff.2 rfl
  | cons c cs ih =>
    obtain ⟨⟨hopening, hclosing⟩, hcs⟩ := List.forall_mem_cons.1 h
    exact (closes_cons_iff hopening hclosing).2 (ih hcs)

/-- The rest of a text closes what the text in front of it has left open. -/
theorem exists_closes_of_append (h : Closes depth (cs ++ rest)) : ∃ k, Closes k rest := by
  induction cs generalizing depth with
  | nil => exact ⟨depth, h⟩
  | cons c cs ih =>
    rw [List.cons_append] at h
    by_cases hopening : c = '('
    · subst hopening
      exact ih (closes_opening_iff.1 h)
    by_cases hclosing : c = ')'
    · subst hclosing
      cases depth with
      | zero => exact absurd h not_closes_closing
      | succ depth => exact ih (closes_closing_iff.1 h)
    · exact ih ((closes_cons_iff hopening hclosing).1 h)

/-- A text that closes more than `k` parentheses closes the last but `k` somewhere. -/
theorem exists_textToClosing {k : Nat} (h : Closes (depth + k + 1) cs) :
    ∃ arguments, textToClosing k cs = some arguments := by
  induction cs generalizing k with
  | nil => cases closes_nil_iff.1 h
  | cons c cs ih =>
    unfold textToClosing
    split
    · next hopening =>
      subst hopening
      obtain ⟨arguments, harguments⟩ := ih (k := k + 1) (closes_opening_iff.1 h)
      exact ⟨_, by rw [harguments]; rfl⟩
    · next hopening =>
      split
      · next hclosing =>
        subst hclosing
        cases k with
        | zero => exact ⟨_, rfl⟩
        | succ k =>
          obtain ⟨arguments, harguments⟩ := ih (closes_closing_iff.1 h)
          exact ⟨_, by dsimp only; rw [harguments]; rfl⟩
      · next hclosing =>
        obtain ⟨arguments, harguments⟩ := ih ((closes_cons_iff hopening hclosing).1 h)
        exact ⟨_, by rw [harguments]; rfl⟩

/-- **The parentheses of a text with a call without end do not balance.** -/
theorem not_isBalanced_of_isUnclosedCall {position : Nat} (h : IsUnclosedCall cs position) :
    ¬IsBalanced cs := by
  obtain ⟨n, name, inner, hbreaks, -, -, -, hunclosed⟩ := h
  intro hbalanced
  have hcs : cs = (cs.take n ++ name) ++ '(' :: inner := by
    rw [List.append_assoc, ← hbreaks.drop_eq, List.take_append_drop]
  rw [IsBalanced, hcs] at hbalanced
  obtain ⟨k, hk⟩ := exists_closes_of_append hbalanced
  obtain ⟨arguments, harguments⟩ := exists_textToClosing (k := 0) (closes_opening_iff.1 hk)
  obtain ⟨hclosed, rest, hinner⟩ := textToClosing_eq_some_iff.1 harguments
  exact hunclosed arguments rest hclosed hinner

end

/-! ## Parentheses among tokens -/

/-- Some tokens close `depth` groups more than they open, and never more than that. -/
def ClosesGroups : Nat → List Token → Prop
  | depth, [] => depth = 0
  | depth, t :: ts =>
    if t.lexeme = .opening then ClosesGroups (depth + 1) ts
    else if t.lexeme = .closing then 0 < depth ∧ ClosesGroups (depth - 1) ts
    else ClosesGroups depth ts

section

variable {depth : Nat} {t : Token} {ts rest : List Token}

theorem closesGroups_nil_iff : ClosesGroups depth [] ↔ depth = 0 :=
  Iff.rfl

theorem closesGroups_opening_iff (h : t.lexeme = .opening) :
    ClosesGroups depth (t :: ts) ↔ ClosesGroups (depth + 1) ts := by
  rw [ClosesGroups, if_pos h]

theorem closesGroups_closing_iff (h : t.lexeme = .closing) :
    ClosesGroups depth (t :: ts) ↔ ∃ outer, depth = outer + 1 ∧ ClosesGroups outer ts := by
  rw [ClosesGroups, if_neg (by simp [h]), if_pos h]
  cases depth with
  | zero => simp
  | succ depth => simp

theorem closesGroups_cons_iff (hopening : t.lexeme ≠ .opening) (hclosing : t.lexeme ≠ .closing) :
    ClosesGroups depth (t :: ts) ↔ ClosesGroups depth ts := by
  rw [ClosesGroups, if_neg hopening, if_neg hclosing]

theorem closesGroups_word_iff {w : String} (h : t.IsWord w) :
    ClosesGroups depth (t :: ts) ↔ ClosesGroups depth ts := by
  have hword : t.lexeme = .word w := h
  exact closesGroups_cons_iff (by simp [hword]) (by simp [hword])

/-- Words do not count. -/
theorem closesGroups_words_iff (h : ∀ t ∈ ts, ∃ w, t.IsWord w) :
    ClosesGroups depth (ts ++ rest) ↔ ClosesGroups depth rest := by
  induction ts with
  | nil => rfl
  | cons t ts ih =>
    obtain ⟨⟨w, ht⟩, hts⟩ := List.forall_mem_cons.1 h
    rw [List.cons_append, closesGroups_word_iff ht, ih hts]

end

/-! ## Texts and their tokens -/

/-- A lexeme that is no parenthesis is written with parentheses that balance. -/
theorem isBalanced_of_isWrittenAs {l : Lexeme} {w : List Char} (h : l.IsWrittenAs w)
    (hopening : l ≠ .opening) (hclosing : l ≠ .closing) : IsBalanced w := by
  have hname {name : List Char} (hname : IsName name) : IsBalanced name := by
    refine isBalanced_of_forall fun c hc => ?_
    obtain ⟨-, hopening, hclosing, -⟩ := isWordChar_iff.1 (hname.2 c hc)
    exact ⟨hopening, hclosing⟩
  cases h with
  | opening => exact absurd rfl hopening
  | closing => exact absurd rfl hclosing
  | comparison c => exact isBalanced_of_forall (by cases c <;> simp [Comparison.symbol])
  | equalSign => exact isBalanced_of_forall (by simp)
  | word hword => exact hname hword
  | @call name arguments hcall _ harguments =>
    have hclosed : Closes 1 (arguments ++ [')']) := by
      rw [← closes_opening_iff, closes_opening_iff]
      exact (closes_append_iff harguments).2 (closes_closing_iff.2 (closes_nil_iff.2 rfl))
    exact (closes_append_iff (hname hcall)).2 (closes_opening_iff.2 hclosed)

/-- **A text closes as many parentheses as its tokens do.** -/
theorem closes_iff_closesGroups {start depth : Nat} {cs : List Char} {ts : List Token}
    (h : tokensFrom start cs = .ok ts) : Closes depth cs ↔ ClosesGroups depth ts := by
  fun_induction tokensFrom start cs generalizing ts depth with
  | case1 start =>
    cases h
    exact closes_nil_iff
  | case2 start c rest hc ih =>
    have hopening : c ≠ '(' := by
      rintro rfl
      exact absurd hc (by decide)
    have hclosing : c ≠ ')' := by
      rintro rfl
      exact absurd hc (by decide)
    rw [closes_cons_iff hopening hclosing, ih h]
  | case3 start c rest hc e hscan => cases h
  | case4 start c rest hc l more hscan e hrest ih => cases h
  | case5 start c rest hc l more hscan found hrest ih =>
    cases h
    have hc : isBlank c = false := by simpa using hc
    obtain ⟨more, rest, rfl, rfl, hl, -⟩ := Lexeme.isWrittenAs_of_scan hc hscan
    rw [List.drop_left] at ih hrest
    by_cases hopening : l = .opening
    · subst hopening
      cases hl
      rw [closesGroups_opening_iff rfl, List.nil_append, closes_opening_iff, ih hrest]
    by_cases hclosing : l = .closing
    · subst hclosing
      cases hl
      rw [closesGroups_closing_iff rfl, List.nil_append]
      cases depth with
      | zero => simp [not_closes_closing]
      | succ depth =>
        rw [closes_closing_iff, ih hrest]
        simp
    · have hbalanced := isBalanced_of_isWrittenAs hl hopening hclosing
      rw [closesGroups_cons_iff hopening hclosing, ← List.cons_append, ← ih hrest]
      exact closes_append_iff hbalanced

/-! ## Selections and their beginnings -/

/-- Lists of counts and of elements consist of words. -/
theorem forall_isWord_of_forall₂ {β : Type} {IsValue : Token → β → Prop} {ts : List Token}
    {bs : List β} (hword : ∀ t b, IsValue t b → ∃ w, t.IsWord w)
    (h : List.Forall₂ IsValue ts bs) : ∀ t ∈ ts, ∃ w, t.IsWord w := by
  induction h with
  | nil => simp
  | cons hb _ ih => exact List.forall_mem_cons.2 ⟨hword _ _ hb, ih⟩

theorem Token.IsCount.isWord {t : Token} {n : Nat} : t.IsCount n → ∃ w, t.IsWord w
  | ⟨w, hw, _⟩ => ⟨w, hw⟩

theorem Token.IsElement.isWord {t : Token} {symbol : String} :
    t.IsElement symbol → ∃ w, t.IsWord w
  | ⟨w, hw, _⟩ => ⟨w, hw⟩

theorem Token.IsNumber.isWord {t : Token} {a : Double} : t.IsNumber a → ∃ w, t.IsWord w
  | ⟨w, hw, _⟩ => ⟨w, hw⟩

section

variable {level : Level} {depth : Nat} {ts us rest : List Token} {p : Predicate Double}

/-- **A part of a selection closes the groups that it opens**, and no others. -/
theorem closesGroups_of_derives (h : Derives level us p) :
    ClosesGroups depth (us ++ rest) ↔ ClosesGroups depth rest := by
  induction h generalizing depth rest with
  | conjunction _ ih => exact ih
  | negation _ ih => exact ih
  | term _ ih => exact ih
  | or _ ht _ hleft hright =>
    rw [List.append_assoc, hleft, List.cons_append, closesGroups_word_iff ht, hright]
  | and _ ht _ hleft hright =>
    rw [List.append_assoc, hleft, List.cons_append, closesGroups_word_iff ht, hright]
  | not ht _ ih => rw [List.cons_append, closesGroups_word_iff ht, ih]
  | parentheses ht _ hu ih =>
    rw [List.cons_append, closesGroups_opening_iff ht, List.append_assoc, ih, List.cons_append,
      closesGroups_closing_iff hu]
    simp
  | all ht => exact closesGroups_word_iff ht
  | nothing ht => exact closesGroups_word_iff ht
  | id ht hcounts _ | molecule ht hcounts _ | type ht hcounts _ =>
    rw [List.cons_append, closesGroups_word_iff ht]
    exact closesGroups_words_iff
      (forall_isWord_of_forall₂ (fun _ _ => Token.IsCount.isWord) hcounts)
  | element ht helements _ =>
    rw [List.cons_append, closesGroups_word_iff ht]
    exact closesGroups_words_iff
      (forall_isWord_of_forall₂ (fun _ _ => Token.IsElement.isWord) helements)
  | compare ht hu hv =>
    obtain ⟨w, hw⟩ := hv.isWord
    rw [List.cons_append, closesGroups_word_iff ht, List.cons_append,
      closesGroups_cons_iff (by simp [hu]) (by simp [hu])]
    exact closesGroups_word_iff hw
  | inside ht hu _ =>
    rw [List.cons_append, closesGroups_word_iff ht]
    exact closesGroups_cons_iff (by simp [hu]) (by simp [hu])
  | within ht hu _ _ hv _ ih | exwithin ht hu _ _ hv _ ih =>
    obtain ⟨w, hw⟩ := hu.isWord
    rw [List.cons_append, closesGroups_word_iff ht, List.cons_append, closesGroups_word_iff hw,
      List.cons_append, closesGroups_word_iff hv, ih]

/-- **A beginning of a selection leaves its groups open**, and no others. -/
theorem closesGroups_of_awaits (h : Awaits level ts depth) :
    ClosesGroups 0 (ts ++ rest) ↔ ClosesGroups depth rest := by
  induction h generalizing rest with
  | start => rfl
  | conjunction _ ih => exact ih
  | negation _ ih => exact ih
  | term _ ih => exact ih
  | or _ hus ht ih | and _ hus ht ih =>
    rw [List.append_assoc, ih, List.append_assoc, closesGroups_of_derives hus]
    exact closesGroups_word_iff ht
  | not _ ht ih =>
    rw [List.append_assoc, ih]
    exact closesGroups_word_iff ht
  | opening _ ht ih =>
    rw [List.append_assoc, ih]
    exact closesGroups_opening_iff ht
  | @radius _ t _ _ _ _ _ ht hu _ _ hv ih =>
    obtain ⟨w, hw⟩ := hu.isWord
    obtain ⟨keyword, hkeyword⟩ : ∃ keyword, t.IsWord keyword := by
      rcases ht with ht | ht <;> exact ⟨_, ht⟩
    rw [List.append_assoc, ih, List.cons_append, closesGroups_word_iff hkeyword, List.cons_append,
      closesGroups_word_iff hw]
    exact closesGroups_word_iff hv

end

/-! ## Refused selections -/

/-- **Reading stops inside a group**, in front of the tokens `rest` and with `depth` groups open,
and a parenthesis is reported as unbalanced. A group is closed where a term should come, and it is
the closing parenthesis that is reported; or a group goes on behind the selection that it starts
with, and it is the opening parenthesis. -/
inductive StopsInGroup (ts : List Token) (position : Nat) : Nat → List Token → Prop
  | noTerm {before rest : List Token} {t : Token} {depth : Nat} :
    ts = before ++ t :: rest → Awaits .term before (depth + 1) → t.lexeme = .closing →
      position = t.position → StopsInGroup ts position depth rest
  | goesOn {before us rest : List Token} {t u : Token} {depth : Nat} {p : Predicate Double} :
    ts = before ++ t :: (us ++ u :: rest) → Awaits .term before depth → t.lexeme = .opening →
      position = t.position → Derives .disjunction us p → u.lexeme ≠ .closing →
        StopsInGroup ts position (depth + 1) (u :: rest)

section

variable {text : String} {position depth : Nat} {ts rest : List Token}

/-- Where reading stops inside a group, the parentheses of the text balance exactly if those behind
this place close the groups that are open. -/
theorem isBalanced_iff_of_stopsInGroup (htokens : tokens text = .ok ts)
    (h : StopsInGroup ts position depth rest) :
    IsBalanced text.toList ↔ ClosesGroups depth rest := by
  have hgroups : IsBalanced text.toList ↔ ClosesGroups 0 ts := closes_iff_closesGroups htokens
  cases h with
  | noTerm hts hbefore ht _ =>
    rw [hgroups, hts, closesGroups_of_awaits hbefore, closesGroups_closing_iff ht]
    simp
  | goesOn hts hbefore ht _ hus _ =>
    rw [hgroups, hts, closesGroups_of_awaits hbefore, closesGroups_opening_iff ht,
      closesGroups_of_derives hus]

/-- A refusal of tokens for their parentheses, though these balance, is one inside a group. -/
theorem exists_stopsInGroup {stop : Nat} (h : Refuses stop ts ⟨position, .unbalanced⟩)
    (hbalanced : ClosesGroups 0 ts) : ∃ depth rest, StopsInGroup ts position depth rest := by
  cases h with
  | @noTerm before rest t depth hts hbefore ht =>
    rw [hts, closesGroups_of_awaits hbefore, closesGroups_closing_iff ht] at hbalanced
    obtain ⟨outer, rfl, -⟩ := hbalanced
    exact ⟨outer, rest, .noTerm hts hbefore ht rfl⟩
  | @unclosed before us rest t depth p hts hbefore ht hus hrest =>
    cases rest with
    | nil =>
      rw [hts, closesGroups_of_awaits hbefore, closesGroups_opening_iff ht,
        closesGroups_of_derives hus, closesGroups_nil_iff] at hbalanced
      cases hbalanced
    | cons u rest =>
      exact ⟨depth + 1, u :: rest, .goesOn hts hbefore ht rfl hus (hrest u rfl)⟩
  | unopened hts hus ht =>
    rw [hts, closesGroups_of_derives hus, closesGroups_closing_iff ht] at hbalanced
    obtain ⟨outer, houter, -⟩ := hbalanced
    cases houter
  | token hat => exact hat.1.elim

/-- **Selections that are refused for their parentheses.** The parentheses of such a selection
balance exactly if reading has stopped inside a group and the parentheses behind close all groups
that are open there. -/
theorem isBalanced_iff_of_unbalanced (h : readPredicate text = .error ⟨position, .unbalanced⟩) :
    IsBalanced text.toList ↔ ∃ ts depth rest, tokens text = .ok ts ∧
      StopsInGroup ts position depth rest ∧ ClosesGroups depth rest := by
  constructor
  · intro hbalanced
    rcases readPredicate_error h with
      (⟨n, -, -, hfault⟩ | ⟨n, -, hcall⟩) | ⟨ts, htokens, ⟨-, hempty⟩ | hrefuses⟩
    · exact hfault.elim
    · exact absurd hbalanced (not_isBalanced_of_isUnclosedCall hcall)
    · cases hempty
    · obtain ⟨depth, rest, hstops⟩ :=
        exists_stopsInGroup hrefuses ((closes_iff_closesGroups htokens).1 hbalanced)
      exact ⟨ts, depth, rest, htokens, hstops,
        (isBalanced_iff_of_stopsInGroup htokens hstops).1 hbalanced⟩
  · rintro ⟨ts, depth, rest, htokens, hstops, hcloses⟩
    exact (isBalanced_iff_of_stopsInGroup htokens hstops).2 hcloses

/-- The empty group is closed where a term should come. -/
theorem isBalanced_iff_of_unbalanced_group :
    readPredicate "()" = .error ⟨1, .unbalanced⟩ ∧ ∃ ts depth rest, tokens "()" = .ok ts ∧
      StopsInGroup ts 1 depth rest ∧ ClosesGroups depth rest := by
  have hread : readPredicate "()" = .error ⟨1, .unbalanced⟩ := by cbv
  have hbalanced : IsBalanced "()".toList :=
    closes_opening_iff.2 (closes_closing_iff.2 (closes_nil_iff.2 rfl))
  exact ⟨hread, (isBalanced_iff_of_unbalanced hread).1 hbalanced⟩

/-- **A word that joins the parts is left out inside a group**, and the parentheses balance: it is
the parenthesis that is reported. -/
theorem exists_balanced_refused :
    ¬∀ text position, readPredicate text = .error ⟨position, .unbalanced⟩ →
      ¬IsBalanced text.toList := by
  intro h
  have hread : readPredicate "(all none)" = .error ⟨0, .unbalanced⟩ := by cbv
  have hinner : IsBalanced "all none".toList := isBalanced_of_forall (by simp)
  refine h _ _ hread (closes_opening_iff.2 ?_)
  exact (closes_append_iff hinner).2 (closes_closing_iff.2 (closes_nil_iff.2 rfl))

end

end Honeycomb.Selection
