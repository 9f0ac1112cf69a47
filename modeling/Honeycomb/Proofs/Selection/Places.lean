import Mathlib
import Honeycomb.Proofs.Selection.Faults
import Honeycomb.Proofs.Selection.Rendering

/-!
# Faults of selections are reported where they are

* `BreaksAt` — blanks and whole lexemes taken off the front of a text lead to some rest of it;
  `IsLexemeStart` — a character that no blank and no lexeme before it reaches, and that is no blank
  itself. `IsUnclosedCall` — the parenthesis that opens a call without end.
* `isLexemeStart_of_mem_tokens` — the tokens of a text stand at such places.
* `scan_error`, `tokensFrom_error` — a text without lexemes has a fault at such a place.
* `PointsAtPlace` — the place that a fault is reported at is the one that its kind tells.

Principal result: `errors_point_at_places` — a selection is refused for being empty exactly if it is
blank, and all faults are reported at places of their kind.
-/

set_option autoImplicit false

namespace Honeycomb.Selection

/-! ## Places in a text -/

/-- Blanks and whole lexemes taken off the front of a text lead, `n` characters on, to some rest. -/
inductive BreaksAt : List Char → Nat → List Char → Prop
  | here (cs : List Char) : BreaksAt cs 0 cs
  | blank {c : Char} {cs rest : List Char} {n : Nat} :
    isBlank c = true → BreaksAt cs n rest → BreaksAt (c :: cs) (n + 1) rest
  | lexeme {l : Lexeme} {w cs rest : List Char} {n : Nat} :
    l.IsWrittenAs w → l.EndsBefore w cs → BreaksAt cs n rest →
      BreaksAt (w ++ cs) (w.length + n) rest

/-- **A lexeme starts at a character**: blanks and whole lexemes lead to it, and it is no blank. -/
def IsLexemeStart (cs : List Char) (position : Nat) : Prop :=
  ∃ c rest, BreaksAt cs position (c :: rest) ∧ isBlank c = false

/-- **A call without end.** The character is the parenthesis behind the name of a call, and there is
none that closes it. -/
def IsUnclosedCall (cs : List Char) (position : Nat) : Prop :=
  ∃ n name inner, BreaksAt cs n (name ++ '(' :: inner) ∧ position = n + name.length ∧
    IsName name ∧ Keyword.ofWord? (String.ofList name) = none ∧
      ∀ arguments rest, IsBalanced arguments → inner ≠ arguments ++ ')' :: rest

section

variable {c : Char} {cs rest : List Char} {n start position : Nat} {t : Token} {ts : List Token}
  {e : ParseError}

theorem BreaksAt.drop_eq (h : BreaksAt cs n rest) : cs.drop n = rest := by
  induction h with
  | here cs => rfl
  | blank _ _ ih => exact ih
  | lexeme _ _ _ ih => rw [← List.drop_drop, List.drop_left, ih]

theorem IsLexemeStart.blank (hc : isBlank c = true) (h : IsLexemeStart cs n) :
    IsLexemeStart (c :: cs) (n + 1) := by
  obtain ⟨d, rest, hbreaks, hd⟩ := h
  exact ⟨d, rest, hbreaks.blank hc, hd⟩

theorem IsLexemeStart.lexeme {l : Lexeme} {w : List Char} (hl : l.IsWrittenAs w)
    (hends : l.EndsBefore w cs) (h : IsLexemeStart cs n) :
    IsLexemeStart (w ++ cs) (w.length + n) := by
  obtain ⟨d, rest, hbreaks, hd⟩ := h
  exact ⟨d, rest, hbreaks.lexeme hl hends, hd⟩

theorem IsUnclosedCall.blank (hc : isBlank c = true) (h : IsUnclosedCall cs n) :
    IsUnclosedCall (c :: cs) (n + 1) := by
  obtain ⟨i, name, inner, hbreaks, rfl, hname⟩ := h
  exact ⟨i + 1, name, inner, hbreaks.blank hc, by omega, hname⟩

theorem IsUnclosedCall.lexeme {l : Lexeme} {w : List Char} (hl : l.IsWrittenAs w)
    (hends : l.EndsBefore w cs) (h : IsUnclosedCall cs n) :
    IsUnclosedCall (w ++ cs) (w.length + n) := by
  obtain ⟨i, name, inner, hbreaks, rfl, hname⟩ := h
  exact ⟨w.length + i, name, inner, hbreaks.lexeme hl hends, by omega, hname⟩

/-! ## Lexemes -/

/-- **The tokens of a text stand where lexemes start.** -/
theorem isLexemeStart_of_mem_tokens (h : tokensFrom start cs = .ok ts) (ht : t ∈ ts) :
    ∃ n, t.position = start + n ∧ IsLexemeStart cs n := by
  fun_induction tokensFrom start cs generalizing ts with
  | case1 start =>
    cases h
    cases ht
  | case2 start c rest hc ih =>
    obtain ⟨n, hposition, hstart⟩ := ih h ht
    exact ⟨n + 1, by omega, hstart.blank hc⟩
  | case3 start c rest hc e hscan => cases h
  | case4 start c rest hc l more hscan e hrest ih => cases h
  | case5 start c rest hc l more hscan found hrest ih =>
    cases h
    have hc : isBlank c = false := by simpa using hc
    obtain ⟨more, rest, rfl, rfl, hl, hends⟩ := Lexeme.isWrittenAs_of_scan hc hscan
    rcases List.mem_cons.1 ht with rfl | ht
    · exact ⟨0, rfl, c, more ++ rest, .here _, hc⟩
    · rw [List.drop_left] at ih hrest
      obtain ⟨n, hposition, hstart⟩ := ih hrest ht
      refine ⟨(c :: more).length + n, ?_, hstart.lexeme hl hends⟩
      rw [List.length_cons]
      omega

/-- A fault stands where a lexeme starts, or it is a call without end. -/
def IsFaultOfText (cs : List Char) (start : Nat) (e : ParseError) : Prop :=
  (∃ n, e.position = start + n ∧ IsLexemeStart cs n ∧ e.fault.IsOfToken) ∨
    ∃ n, e = ⟨start + n, .unbalanced⟩ ∧ IsUnclosedCall cs n

/-- A scan fails at the first character, or in a call without end. -/
theorem scan_error (hc : isBlank c = false) (h : Lexeme.scan c cs = .error e) :
    (e.position = 0 ∧ e.fault.IsOfToken) ∨
      ∃ n, e = ⟨n, .unbalanced⟩ ∧ IsUnclosedCall (c :: cs) n := by
  by_cases hopening : c = '('
  · subst hopening
    cases h
  by_cases hclosing : c = ')'
  · subst hclosing
    cases h
  by_cases hcomparison : isComparisonChar c = true
  · rw [Lexeme.scan_comparison hcomparison] at h
    split at h
    · cases h
    · cases h
      exact .inl ⟨rfl, trivial⟩
  · have hword : isWordChar c = true :=
      isWordChar_iff.2 ⟨hc, hopening, hclosing, by simpa using hcomparison⟩
    obtain ⟨more, rest, rfl, hname, hrest⟩ := Lexeme.exists_name hword cs
    rcases Lexeme.scan_name hname hrest with ⟨hscan, -⟩ | ⟨inner, rfl, hkeyword, hscan⟩
    · rw [hscan] at h
      cases h
    · rw [hscan] at h
      split at h
      · cases h
      · next hunclosed =>
        cases h
        refine .inr ⟨_, rfl, 0, c :: more, inner, .here _, by simp, hname, hkeyword, ?_⟩
        rintro arguments rest hbalanced rfl
        rw [textToClosing_eq_some_iff.2 ⟨hbalanced, rest, rfl⟩] at hunclosed
        cases hunclosed

/-- **A text that has no lexemes has a fault where a lexeme starts**, or a call without end. -/
theorem tokensFrom_error (h : tokensFrom start cs = .error e) : IsFaultOfText cs start e := by
  fun_induction tokensFrom start cs generalizing e with
  | case1 start => cases h
  | case2 start c rest hc ih =>
    rcases ih h with ⟨n, hposition, hstart, hfault⟩ | ⟨n, rfl, hcall⟩
    · exact .inl ⟨n + 1, by omega, hstart.blank hc, hfault⟩
    · exact .inr ⟨n + 1, by rw [Nat.add_assoc, Nat.add_comm 1], hcall.blank hc⟩
  | case3 start c rest hc e' hscan =>
    cases h
    have hc : isBlank c = false := by simpa using hc
    rcases scan_error hc hscan with ⟨hposition, hfault⟩ | ⟨n, rfl, hcall⟩
    · exact .inl ⟨0, by rw [hposition], ⟨c, rest, .here _, hc⟩, hfault⟩
    · exact .inr ⟨n, rfl, hcall⟩
  | case4 start c rest hc l more hscan e' hrest ih =>
    cases h
    have hc : isBlank c = false := by simpa using hc
    obtain ⟨more, rest, rfl, rfl, hl, hends⟩ := Lexeme.isWrittenAs_of_scan hc hscan
    rw [List.drop_left] at ih hrest
    have hnext (n : Nat) : start + 1 + more.length + n = start + ((c :: more).length + n) := by
      rw [List.length_cons]
      omega
    rcases ih hrest with ⟨n, hposition, hstart, hfault⟩ | ⟨n, rfl, hcall⟩
    · exact .inl ⟨_, hposition.trans (hnext n), hstart.lexeme hl hends, hfault⟩
    · exact .inr ⟨_, by rw [hnext], hcall.lexeme hl hends⟩
  | case5 start c rest hc l more hscan found hrest ih => cases h

/-! ## Selections -/

/-- A reason for which tokens are refused lies behind them all or at one of them. -/
theorem Refuses.position_cases {stop : Nat} (h : Refuses stop ts e) :
    (∃ x, Lacks ts x ∧ e = ⟨stop, .unexpectedEnd x⟩) ∨
      (∃ t ∈ ts, e.position = t.position) ∧ e.fault ≠ .empty ∧
        ∀ x, e.fault ≠ .unexpectedEnd x := by
  cases h with
  | lacks hlacks => exact .inl ⟨_, hlacks, rfl⟩
  | noTerm hts _ _ => exact .inr ⟨⟨_, by simp [hts], rfl⟩, nofun, nofun⟩
  | unclosed hts _ _ _ _ => exact .inr ⟨⟨_, by simp [hts], rfl⟩, nofun, nofun⟩
  | unopened hts _ _ => exact .inr ⟨⟨_, by simp [hts], rfl⟩, nofun, nofun⟩
  | token hat =>
    obtain ⟨hfault, hat⟩ := hat
    refine .inr ⟨hat, fun hempty => ?_, fun x hend => ?_⟩
    · rw [hempty] at hfault
      exact hfault
    · rw [hend] at hfault
      exact hfault

variable {text : String}

/-- How the reading of a selection fails: in the text, for want of tokens, or on the tokens. -/
theorem readPredicate_error (h : readPredicate text = .error e) :
    IsFaultOfText text.toList 0 e ∨ ∃ ts, tokens text = .ok ts ∧
      ((ts = [] ∧ e = ⟨0, .empty⟩) ∨ Refuses text.length ts e) := by
  unfold readPredicate at h
  split at h
  · next e' htokens =>
    cases h
    exact .inl (tokensFrom_error htokens)
  · next ts htokens => exact .inr ⟨ts, htokens, refuses_of_ofTokens h⟩

/-- Only a blank text has no tokens. -/
theorem tokens_eq_nil_iff : tokens text = .ok [] ↔ ∀ c ∈ text.toList, isBlank c = true := by
  constructor
  · intro h
    obtain ⟨pieces, after, -, hafter, htext, hplaced⟩ := isRenderingFrom_of_tokensFrom h
    cases pieces with
    | nil =>
      rw [htext]
      exact hafter
    | cons p pieces =>
      rw [placed_cons] at hplaced
      cases hplaced
  · intro h
    have hgap := tokensFrom_gap h 0 []
    rw [List.append_nil, tokensFrom] at hgap
    exact hgap

/-- **The place of a fault.** It is in the text or right behind it. The end of the text is where
something is lacking: all tokens have been taken up, and they begin a selection. Any other fault but
that of a blank text is at a visible character where a lexeme starts, or which opens a call without
end. -/
structure PointsAtPlace (text : String) (e : ParseError) : Prop where
  position_le : e.position ≤ text.length
  end_iff : (∃ x, e.fault = .unexpectedEnd x) ↔ e.fault ≠ .empty ∧ e.position = text.length
  lacks : ∀ x, e.fault = .unexpectedEnd x → ∃ ts, tokens text = .ok ts ∧ Lacks ts x ∧
    ∃ more p, Derives .disjunction (ts ++ more) p
  visible : e.fault ≠ .empty → (∀ x, e.fault ≠ .unexpectedEnd x) →
    ∃ c, text.toList[e.position]? = some c ∧ isBlank c = false
  starts : e.fault ≠ .empty → (∀ x, e.fault ≠ .unexpectedEnd x) →
    IsLexemeStart text.toList e.position ∨
      e.fault = .unbalanced ∧ IsUnclosedCall text.toList e.position

/-- The parenthesis of a call without end and the first character of a lexeme can be seen. -/
theorem exists_visible (h : IsLexemeStart cs position ∨ IsUnclosedCall cs position) :
    ∃ c, cs[position]? = some c ∧ isBlank c = false := by
  rcases h with ⟨c, rest, hbreaks, hc⟩ | ⟨n, name, inner, hbreaks, rfl, -⟩
  · refine ⟨c, ?_, hc⟩
    rw [← List.head?_drop, hbreaks.drop_eq]
    rfl
  · refine ⟨'(', ?_, by decide⟩
    rw [← List.head?_drop, ← List.drop_drop, hbreaks.drop_eq, List.drop_left]
    rfl

/-- A fault at a lexeme, or of a call without end, is reported at a place of its kind. -/
theorem pointsAtPlace_of_starts (hend : ∀ x, e.fault ≠ .unexpectedEnd x)
    (hstarts : IsLexemeStart text.toList e.position ∨
      e.fault = .unbalanced ∧ IsUnclosedCall text.toList e.position) : PointsAtPlace text e := by
  have hvisible := exists_visible (hstarts.imp_right And.right)
  have hlt : e.position < text.length := by
    obtain ⟨c, hc, -⟩ := hvisible
    rw [← String.length_toList]
    exact (List.getElem?_eq_some_iff.1 hc).1
  exact {
    position_le := hlt.le
    end_iff := iff_of_false (fun ⟨x, hx⟩ => hend x hx) fun h => hlt.ne h.2
    lacks := fun x hx => absurd hx (hend x)
    visible := fun _ _ => hvisible
    starts := fun _ _ => hstarts }

/-- **The faults of all selections point at places of their kind.** -/
theorem pointsAtPlace_of_error (h : readPredicate text = .error e) : PointsAtPlace text e := by
  rcases readPredicate_error h with
    (⟨n, hposition, hstart, hfault⟩ | ⟨n, rfl, hcall⟩) | ⟨ts, htokens, ⟨-, rfl⟩ | hrefuses⟩
  · rw [Nat.zero_add] at hposition
    rw [← hposition] at hstart
    refine pointsAtPlace_of_starts (fun x hend => ?_) (.inl hstart)
    rw [hend] at hfault
    exact hfault
  · rw [Nat.zero_add]
    exact pointsAtPlace_of_starts nofun (.inr ⟨rfl, hcall⟩)
  · exact {
      position_le := Nat.zero_le _
      end_iff := iff_of_false nofun fun h => h.1 rfl
      lacks := nofun
      visible := fun hempty => absurd rfl hempty
      starts := fun hempty => absurd rfl hempty }
  · rcases hrefuses.position_cases with ⟨x, hlacks, rfl⟩ | ⟨⟨t, ht, hposition⟩, -, hend⟩
    · exact {
        position_le := le_rfl
        end_iff := iff_of_true ⟨x, rfl⟩ ⟨nofun, rfl⟩
        lacks := by
          rintro _ ⟨⟩
          exact ⟨ts, htokens, hlacks, exists_selection_of_lacks hlacks⟩
        visible := fun _ hend => absurd rfl (hend x)
        starts := fun _ hend => absurd rfl (hend x) }
    · obtain ⟨n, hn, hstart⟩ := isLexemeStart_of_mem_tokens htokens ht
      rw [Nat.zero_add] at hn
      rw [← hn, ← hposition] at hstart
      exact pointsAtPlace_of_starts hend (.inl hstart)

/-- **Faults of selections are reported where they are**: a selection is refused for being empty
exactly if it is blank, and every refusal points at a place of its kind. -/
theorem errors_point_at_places (text : String) :
    ((∃ e, readPredicate text = .error e ∧ e.fault = .empty) ↔
        ∀ c ∈ text.toList, isBlank c = true) ∧
      ∀ e, readPredicate text = .error e → PointsAtPlace text e := by
  refine ⟨?_, fun e => pointsAtPlace_of_error⟩
  rw [← tokens_eq_nil_iff]
  constructor
  · rintro ⟨e, he, hempty⟩
    rcases readPredicate_error he with
      (⟨n, -, -, hfault⟩ | ⟨n, rfl, -⟩) | ⟨ts, htokens, ⟨rfl, -⟩ | hrefuses⟩
    · rw [hempty] at hfault
      exact hfault.elim
    · cases hempty
    · exact htokens
    · rcases hrefuses.position_cases with ⟨x, -, rfl⟩ | ⟨-, hne, -⟩
      · cases hempty
      · exact absurd hempty hne
  · intro htokens
    refine ⟨⟨0, .empty⟩, ?_, rfl⟩
    unfold readPredicate
    rw [htokens]
    rfl

/-- The parenthesis of the call is the fourteenth character, though not the fourteenth byte. -/
theorem errors_point_at_places_unclosed :
    readPredicate "within Sphère(r=1" = .error ⟨13, .unbalanced⟩ ∧
      ∃ c, "within Sphère(r=1".toList[13]? = some c ∧ isBlank c = false := by
  have hread : readPredicate "within Sphère(r=1" = .error ⟨13, .unbalanced⟩ := by cbv
  have hplace := (errors_point_at_places _).2 _ hread
  exact ⟨hread, hplace.visible (by simp) (by simp)⟩

end

end Honeycomb.Selection
