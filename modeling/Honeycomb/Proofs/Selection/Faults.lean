import Mathlib
import Honeycomb.Proofs.Selection.Parsing

/-!
# Where reading stops

What tells on which tokens no selection can be read.

* `Awaits` — some tokens begin a selection, and a part of some level has to come next, inside some
  groups; it has one rule for each place of a part in the grammar. `exists_selection_of_awaits` —
  with such a part they go on to a selection.
* `Lacks` — all tokens have been taken up, and something is lacking behind them.
* `Refuses` — why some tokens are no selection, and where this shows.
* `disjunction_eq_error_iff`, …, `term_eq_error` — how each reader fails, in terms of the readers
  that it calls.
* `refuses_of_disjunction` and its companions — what a reader fails on, behind any tokens that await
  it, by induction on the number of tokens.

Principal result: `refuses_of_ofTokens` — a list of tokens that is not read is refused for a reason.
-/

set_option autoImplicit false

namespace Honeycomb.Selection

/-! ## Beginnings of selections -/

/-- **Beginnings of selections.** Some tokens begin a selection, and a part of some level has to
come next, inside `depth` groups. -/
inductive Awaits : Level → List Token → Nat → Prop
  | start : Awaits .disjunction [] 0
  | conjunction {ts : List Token} {depth : Nat} :
    Awaits .disjunction ts depth → Awaits .conjunction ts depth
  | or {ts us : List Token} {t : Token} {depth : Nat} {p : Predicate Double} :
    Awaits .disjunction ts depth → Derives .disjunction us p → t.IsWord "or" →
      Awaits .conjunction (ts ++ (us ++ [t])) depth
  | negation {ts : List Token} {depth : Nat} :
    Awaits .conjunction ts depth → Awaits .negation ts depth
  | and {ts us : List Token} {t : Token} {depth : Nat} {p : Predicate Double} :
    Awaits .conjunction ts depth → Derives .conjunction us p → t.IsWord "and" →
      Awaits .negation (ts ++ (us ++ [t])) depth
  | not {ts : List Token} {t : Token} {depth : Nat} :
    Awaits .negation ts depth → t.IsWord "not" → Awaits .negation (ts ++ [t]) depth
  | term {ts : List Token} {depth : Nat} : Awaits .negation ts depth → Awaits .term ts depth
  | opening {ts : List Token} {t : Token} {depth : Nat} :
    Awaits .term ts depth → t.lexeme = .opening → Awaits .disjunction (ts ++ [t]) (depth + 1)
  | radius {ts : List Token} {t u v : Token} {depth : Nat} {radius : Double} :
    Awaits .term ts depth → t.IsWord "within" ∨ t.IsWord "exwithin" → u.IsNumber radius →
      radius.isFinite = true → 0 ≤ radius → v.IsWord "of" →
        Awaits .negation (ts ++ [t, u, v]) depth

/-- **Beginnings go on to selections**, with any part of the level that they await. -/
theorem exists_selection_of_awaits {level : Level} {ts us : List Token} {depth : Nat}
    {p : Predicate Double} (h : Awaits level ts depth) (hus : Derives level us p) :
    ∃ more q, Derives .disjunction (ts ++ (us ++ more)) q := by
  induction h generalizing us p with
  | start => exact ⟨[], p, by rwa [List.append_nil]⟩
  | conjunction _ ih => exact ih hus.conjunction
  | or _ hleft ht ih =>
    obtain ⟨more, q, hq⟩ := ih (hleft.or ht hus)
    exact ⟨more, q, by simpa using hq⟩
  | negation _ ih => exact ih hus.negation
  | and _ hleft ht ih =>
    obtain ⟨more, q, hq⟩ := ih (hleft.and ht hus)
    exact ⟨more, q, by simpa using hq⟩
  | not _ ht ih =>
    obtain ⟨more, q, hq⟩ := ih (hus.not ht)
    exact ⟨more, q, by simpa using hq⟩
  | term _ ih => exact ih hus.term
  | opening _ ht ih =>
    obtain ⟨more, q, hq⟩ := ih (.parentheses (u := ⟨.closing, 0⟩) ht hus rfl)
    exact ⟨⟨.closing, 0⟩ :: more, q, by simpa using hq⟩
  | radius _ ht hu hfinite hle hv ih =>
    rcases ht with ht | ht
    · obtain ⟨more, q, hq⟩ := ih (.within ht hu hfinite hle hv hus)
      exact ⟨more, q, by simpa using hq⟩
    · obtain ⟨more, q, hq⟩ := ih (.exwithin ht hu hfinite hle hv hus)
      exact ⟨more, q, by simpa using hq⟩

/-- **All tokens have been taken up**, and something is lacking behind them. -/
inductive Lacks : List Token → Expected → Prop
  | term {ts : List Token} {depth : Nat} : Awaits .negation ts depth → Lacks ts .term
  | comparison {ts : List Token} {t : Token} {depth : Nat} {axis : Axis} :
    Awaits .term ts depth → t.IsWord axis.name → Lacks (ts ++ [t]) .comparison
  | number {ts : List Token} {t u : Token} {depth : Nat} {axis : Axis} {c : Comparison} :
    Awaits .term ts depth → t.IsWord axis.name → u.lexeme = .comparison c →
      Lacks (ts ++ [t, u]) .number
  | radius {ts : List Token} {t : Token} {depth : Nat} :
    Awaits .term ts depth → t.IsWord "within" ∨ t.IsWord "exwithin" → Lacks (ts ++ [t]) .radius
  | ofWord {ts : List Token} {t u : Token} {depth : Nat} {radius : Double} :
    Awaits .term ts depth → t.IsWord "within" ∨ t.IsWord "exwithin" → u.IsNumber radius →
      radius.isFinite = true → 0 ≤ radius → Lacks (ts ++ [t, u]) .ofWord

/-- The word that selects all atoms. -/
def allWord : Token :=
  ⟨.word "all", 0⟩

theorem derives_allWord : Derives .term [allWord] .all :=
  .all rfl

/-- The number zero. -/
def zeroWord : Token :=
  ⟨.word "0", 0⟩

theorem isNumber_zeroWord : zeroWord.IsNumber 0 :=
  ⟨"0", rfl, rfl⟩

/-- A radius with its keyword goes on to a selection. -/
theorem exists_selection_of_radius {ts : List Token} {t u : Token} {depth : Nat} {radius : Double}
    (h : Awaits .term ts depth) (ht : t.IsWord "within" ∨ t.IsWord "exwithin")
    (hu : u.IsNumber radius) (hfinite : radius.isFinite = true) (hle : 0 ≤ radius) :
    ∃ more q, Derives .disjunction (ts ++ (t :: u :: more)) q := by
  have hof : Token.IsWord ⟨.word "of", 0⟩ "of" := rfl
  obtain ⟨more, q, hq⟩ :=
    exists_selection_of_awaits (h.radius ht hu hfinite hle hof) derives_allWord.term
  exact ⟨_, q, by simpa using hq⟩

/-- **What lacks something begins a selection.** -/
theorem exists_selection_of_lacks {ts : List Token} {x : Expected} (h : Lacks ts x) :
    ∃ more q, Derives .disjunction (ts ++ more) q := by
  cases h with
  | term h =>
    obtain ⟨more, q, hq⟩ := exists_selection_of_awaits h derives_allWord.term
    exact ⟨_, q, hq⟩
  | comparison h ht =>
    obtain ⟨more, q, hq⟩ := exists_selection_of_awaits h
      (.compare (u := ⟨.comparison .less, 0⟩) ht rfl isNumber_zeroWord)
    exact ⟨_, q, by simpa using hq⟩
  | number h ht hu =>
    obtain ⟨more, q, hq⟩ := exists_selection_of_awaits h (.compare ht hu isNumber_zeroWord)
    exact ⟨_, q, by simpa using hq⟩
  | radius h ht =>
    obtain ⟨more, q, hq⟩ :=
      exists_selection_of_radius h ht isNumber_zeroWord rfl (by decide)
    exact ⟨_, q, by simpa using hq⟩
  | ofWord h ht hu hfinite hle =>
    obtain ⟨more, q, hq⟩ := exists_selection_of_radius h ht hu hfinite hle
    exact ⟨_, q, by simpa using hq⟩

/-! ## Reasons -/

/-- A fault of some token, other than a parenthesis that has no partner. -/
def ParseFault.IsOfToken : ParseFault → Prop
  | .empty => False
  | .unbalanced => False
  | .unexpectedEnd _ => False
  | _ => True

/-- A fault of one of some tokens is reported at this token. -/
def ParseError.IsAtToken (e : ParseError) (ts : List Token) : Prop :=
  e.fault.IsOfToken ∧ ∃ t ∈ ts, e.position = t.position

/-- **Why some tokens are no selection.** Something is lacking behind the last one; a closing
parenthesis stands where a term should; a group is not closed behind the selection that it starts
with; a closing parenthesis stands behind a whole selection; or there is a fault of another kind,
which is reported at one of the tokens. -/
inductive Refuses (stop : Nat) (ts : List Token) : ParseError → Prop
  | lacks {x : Expected} : Lacks ts x → Refuses stop ts ⟨stop, .unexpectedEnd x⟩
  | noTerm {before rest : List Token} {t : Token} {depth : Nat} :
    ts = before ++ t :: rest → Awaits .term before depth → t.lexeme = .closing →
      Refuses stop ts ⟨t.position, .unbalanced⟩
  | unclosed {before us rest : List Token} {t : Token} {depth : Nat} {p : Predicate Double} :
    ts = before ++ t :: (us ++ rest) → Awaits .term before depth → t.lexeme = .opening →
      Derives .disjunction us p → (∀ u ∈ rest.head?, u.lexeme ≠ .closing) →
        Refuses stop ts ⟨t.position, .unbalanced⟩
  | unopened {us rest : List Token} {t : Token} {p : Predicate Double} :
    ts = us ++ t :: rest → Derives .disjunction us p → t.lexeme = .closing →
      Refuses stop ts ⟨t.position, .unbalanced⟩
  | token {e : ParseError} : e.IsAtToken ts → Refuses stop ts e

variable {stop : Nat} {t : Token} {ts us after : List Token} {e : ParseError}
  {left : Predicate Double}

theorem ParseError.IsAtToken.mono (h : e.IsAtToken ts) (hsub : ts ⊆ us) : e.IsAtToken us := by
  obtain ⟨hfault, t, ht, hposition⟩ := h
  exact ⟨hfault, t, hsub ht, hposition⟩

theorem isAtToken_head {position : Nat} {fault : ParseFault} (h : fault.IsOfToken)
    (hposition : position = t.position) (ts : List Token) :
    ParseError.IsAtToken ⟨position, fault⟩ (t :: ts) :=
  ⟨h, t, List.mem_cons_self, hposition⟩

/-- What is not there is lacking at the end, or something else stands in its place. -/
theorem lacking_cases (stop : Nat) (x : Expected) (ts : List Token) :
    (ts = [] ∧ lacking stop x ts = ⟨stop, .unexpectedEnd x⟩) ∨
      (lacking stop x ts).IsAtToken ts := by
  cases ts with
  | nil => exact .inl ⟨rfl, rfl⟩
  | cons t ts => exact .inr (isAtToken_head (by trivial) rfl ts)

/-! ## Faults in terms -/

theorem isAtToken_of_readCounts {k : Keyword} (h : readCounts k t.position ts = .error e) :
    e.IsAtToken (t :: ts) := by
  unfold readCounts at h
  dsimp only at h
  split at h
  · split at h
    · next w at_ rest =>
      split at h
      · cases h
        exact isAtToken_head (by trivial) rfl _
      · cases h
        exact ⟨by trivial, _, List.mem_cons_of_mem _ List.mem_cons_self, rfl⟩
    · cases h
      exact isAtToken_head (by trivial) rfl _
  · cases h

theorem isAtToken_of_readElements (h : readElements t.position ts = .error e) :
    e.IsAtToken (t :: ts) := by
  unfold readElements at h
  dsimp only at h
  split at h
  · next w at_ rest hdrop =>
    split at h
    · cases h
      refine ⟨by trivial, ⟨.word w, at_⟩, List.mem_cons_of_mem _ ?_, rfl⟩
      apply List.mem_of_mem_drop
      rw [hdrop]
      exact List.mem_cons_self
    · split at h
      · cases h
        exact isAtToken_head (by trivial) rfl _
      · cases h
  · split at h
    · cases h
      exact isAtToken_head (by trivial) rfl _
    · cases h

theorem readNumberToken_error {x : Expected} (h : readNumberToken stop x ts = .error e) :
    (ts = [] ∧ e = ⟨stop, .unexpectedEnd x⟩) ∨ e.IsAtToken ts := by
  unfold readNumberToken at h
  split at h
  · split at h
    · cases h
    · cases h
      exact .inr (isAtToken_head (by trivial) rfl _)
  · cases h
    exact lacking_cases stop x ts

theorem readComparison_error (h : readComparison stop ts = .error e) :
    (ts = [] ∧ e = ⟨stop, .unexpectedEnd .comparison⟩) ∨
      (∃ u c, ts = [u] ∧ u.lexeme = .comparison c ∧ e = ⟨stop, .unexpectedEnd .number⟩) ∨
        e.IsAtToken ts := by
  unfold readComparison at h
  split at h
  · next c at_ rest =>
    rcases readNumberToken_error (map_eq_error_iff.1 h) with ⟨rfl, rfl⟩ | hat
    · exact .inr (.inl ⟨_, c, rfl, rfl, rfl⟩)
    · exact .inr (.inr (hat.mono (List.subset_cons_self _ _)))
  · cases h
    rcases lacking_cases stop .comparison ts with hend | hat
    · exact .inl hend
    · exact .inr (.inr hat)

theorem readRadius_error (h : readRadius stop ts = .error e) :
    (ts = [] ∧ e = ⟨stop, .unexpectedEnd .radius⟩) ∨
      (∃ u radius, ts = [u] ∧ u.IsNumber radius ∧ radius.isFinite = true ∧ 0 ≤ radius ∧
        e = ⟨stop, .unexpectedEnd .ofWord⟩) ∨ e.IsAtToken ts := by
  unfold readRadius at h
  split at h
  · next e' hnumber =>
    cases h
    rcases readNumberToken_error hnumber with hend | hat
    · exact .inl hend
    · exact .inr (.inr hat)
  · next radius hnumber =>
    obtain ⟨u, rest, rfl, hu⟩ := readNumberToken_eq_ok_iff.1 hnumber
    split at h
    · next hradius =>
      rw [Bool.and_eq_true, decide_eq_true_iff] at hradius
      split at h
      · cases h
      · cases h
        rcases lacking_cases stop .ofWord rest with ⟨rfl, hend⟩ | hat
        · exact .inr (.inl ⟨u, radius, rfl, hu, hradius.1, hradius.2, hend⟩)
        · exact .inr (.inr (hat.mono (List.subset_cons_self _ _)))
    · cases h
      exact .inr (.inr (isAtToken_head (by trivial) rfl _))

/-- The call of a region that cannot be made is at fault. -/
theorem isOfToken_of_readRegion {name arguments : String} {fault : ParseFault}
    (h : readRegion name arguments = .error fault) : fault.IsOfToken := by
  unfold readRegion at h
  split at h
  · cases h
    trivial
  · split at h
    · cases h
      trivial
    · next args hargs _ shape hshape =>
      cases hregion : args.region shape with
      | ok region =>
        rw [hregion] at h
        cases h
      | error fault =>
        rw [hregion] at h
        cases h
        trivial

section

variable {before : List Token} {depth : Nat} {k : Keyword}

/-- Behind tokens that await it, a term that holds no other predicate fails for a reason. -/
theorem refuses_of_readSimple (hbefore : Awaits .term before depth) (ht : t.IsWord k.text)
    (h : readSimple stop k t.position after = some (.error e)) :
    Refuses stop (before ++ t :: after) e := by
  have token (hat : e.IsAtToken (t :: after)) : Refuses stop (before ++ t :: after) e :=
    .token (hat.mono (List.subset_append_right _ _))
  cases k with
  | id | molecule | type =>
    exact token (isAtToken_of_readCounts (map_eq_error_iff.1 (Option.some.inj h)))
  | element => exact token (isAtToken_of_readElements (map_eq_error_iff.1 (Option.some.inj h)))
  | coordinate axis =>
    rcases readComparison_error (map_eq_error_iff.1 (Option.some.inj h)) with
      ⟨rfl, rfl⟩ | ⟨u, c, rfl, hu, rfl⟩ | hat
    · exact .lacks (.comparison hbefore ht)
    · exact .lacks (.number hbefore ht hu)
    · exact token (hat.mono (List.subset_cons_self _ _))
  | within =>
    obtain ⟨⟨name, arguments, at_⟩, hcall, heq⟩ := Option.map_eq_some_iff.1 h
    obtain ⟨rest, rfl⟩ := leadingCall?_eq_some_iff.1 hcall
    dsimp only at heq
    split at heq
    · cases heq
    · next fault hregion =>
      cases heq
      exact token
        ⟨isOfToken_of_readRegion hregion, _, List.mem_cons_of_mem _ List.mem_cons_self, rfl⟩
  | _ => cases h

/-- Behind tokens that await it, a radius fails for a reason. -/
theorem refuses_of_readRadius (hbefore : Awaits .term before depth)
    (ht : t.IsWord "within" ∨ t.IsWord "exwithin") (h : readRadius stop after = .error e) :
    Refuses stop (before ++ t :: after) e := by
  rcases readRadius_error h with ⟨rfl, rfl⟩ | ⟨u, radius, rfl, hu, hfinite, hle, rfl⟩ | hat
  · exact .lacks (.radius hbefore ht)
  · exact .lacks (.ofWord hbefore ht hu hfinite hle)
  · refine .token (hat.mono fun u hu => ?_)
    exact List.mem_append_right _ (List.mem_cons_of_mem _ hu)

end

/-! ## How readers fail -/

section

variable (k : Keyword) (readPart : (ts : List Token) → Outcome ts)
  (join : Predicate Double → Predicate Double → Predicate Double)
  (goOn : Predicate Double → (ts : List Token) → LoopOutcome ts)

/-- A part fails, or what a loop joins to it. -/
theorem joinAll_eq_error_iff : joinAll readPart goOn ts = .error e ↔
    readPart ts = .error e ∨ ∃ q mid, Gives (readPart ts) q mid ∧ goOn q mid = .error e := by
  unfold joinAll Gives
  constructor
  · intro h
    split at h
    · next hfirst =>
      cases h
      exact .inl hfirst
    · next first hfirst =>
      split at h
      · next hloop =>
        cases h
        exact .inr ⟨first.predicate, first.rest, ⟨first.shorter, hfirst⟩, hloop⟩
      · cases h
  · rintro (hfirst | ⟨q, mid, ⟨hmid, hfirst⟩, hloop⟩)
    · rw [hfirst]
    · rw [hfirst]
      dsimp only
      rw [hloop]

/-- A loop fails in the part behind its connective, or in what it joins to that. -/
theorem joinNext_eq_error_iff : joinNext k readPart join goOn left ts = .error e ↔
    ∃ t after, ts = t :: after ∧ t.IsWord k.text ∧ (readPart after = .error e ∨
      ∃ q mid, Gives (readPart after) q mid ∧ goOn (join left q) mid = .error e) := by
  unfold Gives
  constructor
  · intro h
    unfold joinNext LoopOutcome.ended at h
    split at h
    · cases h
    · next t after =>
      split at h
      · next hkeyword =>
        refine ⟨t, after, rfl, Token.keyword?_eq_some_iff.1 hkeyword, ?_⟩
        split at h
        · next hright =>
          cases h
          exact .inl hright
        · next right hright =>
          split at h
          · next hloop =>
            cases h
            exact .inr ⟨right.predicate, right.rest, ⟨right.shorter, hright⟩, hloop⟩
          · cases h
      · cases h
  · rintro ⟨t, after, rfl, ht, hparts⟩
    unfold joinNext
    dsimp only
    rw [if_pos (Token.keyword?_eq_some_iff.2 ht)]
    rcases hparts with hright | ⟨q, mid, ⟨hmid, hright⟩, hloop⟩
    · rw [hright]
    · rw [hright]
      dsimp only
      rw [hloop]

end

theorem disjunction_eq_error_iff : disjunction stop ts = .error e ↔
    conjunction stop ts = .error e ∨ ∃ q mid, Gives (conjunction stop ts) q mid ∧
      disjunctionFrom stop q mid = .error e := by
  rw [disjunction]
  exact joinAll_eq_error_iff (conjunction stop) (disjunctionFrom stop)

theorem disjunctionFrom_eq_error_iff : disjunctionFrom stop left ts = .error e ↔
    ∃ t after, ts = t :: after ∧ t.IsWord "or" ∧ (conjunction stop after = .error e ∨
      ∃ q mid, Gives (conjunction stop after) q mid ∧
        disjunctionFrom stop (.or left q) mid = .error e) := by
  rw [disjunctionFrom.eq_def]
  exact joinNext_eq_error_iff .or (conjunction stop) .or (disjunctionFrom stop)

theorem conjunction_eq_error_iff : conjunction stop ts = .error e ↔
    negation stop ts = .error e ∨ ∃ q mid, Gives (negation stop ts) q mid ∧
      conjunctionFrom stop q mid = .error e := by
  rw [conjunction]
  exact joinAll_eq_error_iff (negation stop) (conjunctionFrom stop)

theorem conjunctionFrom_eq_error_iff : conjunctionFrom stop left ts = .error e ↔
    ∃ t after, ts = t :: after ∧ t.IsWord "and" ∧ (negation stop after = .error e ∨
      ∃ q mid, Gives (negation stop after) q mid ∧
        conjunctionFrom stop (.and left q) mid = .error e) := by
  rw [conjunctionFrom.eq_def]
  exact joinNext_eq_error_iff .and (negation stop) .and (conjunctionFrom stop)

theorem negation_error (h : negation stop ts = .error e) :
    (ts = [] ∧ e = ⟨stop, .unexpectedEnd .term⟩) ∨ ∃ t after, ts = t :: after ∧
      ((t.IsWord "not" ∧ negation stop after = .error e) ∨ term stop t after = .error e) := by
  cases ts with
  | nil =>
    rw [negation] at h
    cases h
    exact .inl ⟨rfl, rfl⟩
  | cons t after =>
    refine .inr ⟨t, after, rfl, ?_⟩
    rw [negation] at h
    split at h
    · next hkeyword =>
      split at h
      · next hinner =>
        cases h
        exact .inl ⟨Token.keyword?_eq_some_iff.1 hkeyword, hinner⟩
      · cases h
    · exact .inr h

/-- How a term fails: in the selection of a group or behind it, at its first token, in a term that
holds no other predicate, in a radius or behind one. -/
theorem term_error (h : term stop t after = .error e) :
    (t.lexeme = .opening ∧ (disjunction stop after = .error e ∨ ∃ q rest,
        Gives (disjunction stop after) q rest ∧ (∀ u ∈ rest.head?, u.lexeme ≠ .closing) ∧
          e = ⟨t.position, .unbalanced⟩)) ∨
      (t.lexeme = .closing ∧ e = ⟨t.position, .unbalanced⟩) ∨
      e.IsAtToken [t] ∨
      (∃ k : Keyword, t.IsWord k.text ∧ readSimple stop k t.position after = some (.error e)) ∨
      ((t.IsWord "within" ∨ t.IsWord "exwithin") ∧
        (readRadius stop after = .error e ∨ ∃ radius, readRadius stop after = .ok radius ∧
          negation stop (after.drop 2) = .error e)) := by
  rw [term] at h
  split at h
  · next hopening =>
    refine .inl ⟨hopening, ?_⟩
    split at h
    · next hinner =>
      cases h
      exact .inl hinner
    · next inner hinner =>
      split at h
      · cases h
      · next hrest =>
        cases h
        refine .inr
          ⟨inner.predicate, inner.rest, ⟨inner.shorter, hinner⟩, fun u hu hclosing => ?_, rfl⟩
        obtain ⟨p, rest, hshorter⟩ := inner
        obtain ⟨more, rfl⟩ := List.head?_eq_some_iff.1 hu
        obtain ⟨_, at_⟩ := u
        cases hclosing
        exact hrest p at_ more hshorter rfl
  · next hclosing =>
    cases h
    exact .inr (.inl ⟨hclosing, rfl⟩)
  · cases h
    exact .inr (.inr (.inl (isAtToken_head (by trivial) rfl _)))
  · cases h
    exact .inr (.inr (.inl (isAtToken_head (by trivial) rfl _)))
  · next w hword =>
    split at h
    · cases h
      exact .inr (.inr (.inl (isAtToken_head (by trivial) rfl _)))
    · next k hkeyword =>
      have ht : t.IsWord k.text := ofWord?_eq_some_iff.1 hkeyword ▸ hword
      split at h
      · next e' hsimple =>
        cases h
        exact .inr (.inr (.inr (.inl ⟨k, ht, hsimple⟩)))
      · cases h
      · split at h
        · next hk =>
          refine .inr (.inr (.inr (.inr ⟨?_, ?_⟩)))
          · rcases hk with rfl | rfl
            · exact .inl ht
            · exact .inr ht
          · split at h
            · next hradius =>
              cases h
              exact .inl hradius
            · next radius hradius =>
              split at h
              · next hinner =>
                cases h
                exact .inr ⟨radius, hradius, hinner⟩
              · cases h
        · cases h
          exact .inr (.inr (.inl (isAtToken_head (by trivial) rfl _)))

/-! ## What is not read is refused -/

mutual

theorem refuses_of_disjunction (ts : List Token) {before : List Token} {depth : Nat}
    {e : ParseError} (hbefore : Awaits .disjunction before depth)
    (h : disjunction stop ts = .error e) : Refuses stop (before ++ ts) e := by
  rcases disjunction_eq_error_iff.1 h with hfirst | ⟨q, mid, hfirst, hloop⟩
  · exact refuses_of_conjunction ts hbefore.conjunction hfirst
  · obtain ⟨used, hts, hused⟩ := takesPart_of_conjunction ts hfirst
    rw [hts]
    exact refuses_of_disjunctionFrom mid hbefore hused.conjunction hloop
termination_by (ts.length, 3)
decreasing_by
  · exact Prod.Lex.right _ (by omega)
  · exact Prod.Lex.left _ _ hfirst.shorter

theorem refuses_of_disjunctionFrom (ts : List Token) {before us : List Token} {depth : Nat}
    {left : Predicate Double} {e : ParseError} (hbefore : Awaits .disjunction before depth)
    (hleft : Derives .disjunction us left) (h : disjunctionFrom stop left ts = .error e) :
    Refuses stop (before ++ (us ++ ts)) e := by
  obtain ⟨t, after, hts, ht, hparts⟩ := disjunctionFrom_eq_error_iff.1 h
  have hlength := congrArg List.length hts
  rcases hparts with hright | ⟨q, mid, hq, hloop⟩
  · have hpart := refuses_of_conjunction after (hbefore.or hleft ht) hright
    simpa [hts] using hpart
  · have hshorter := hq.shorter
    obtain ⟨used, hafter, hused⟩ := takesPart_of_conjunction after hq
    have hrest := refuses_of_disjunctionFrom mid hbefore (hleft.or ht hused) hloop
    simpa [hts, hafter] using hrest
termination_by (ts.length, 4)
decreasing_by
  · exact Prod.Lex.left _ _ (by rw [hlength]; exact Nat.lt_succ_self _)
  · exact Prod.Lex.left _ _ (by rw [hlength]; exact Nat.lt_succ_of_lt hshorter)

theorem refuses_of_conjunction (ts : List Token) {before : List Token} {depth : Nat}
    {e : ParseError} (hbefore : Awaits .conjunction before depth)
    (h : conjunction stop ts = .error e) : Refuses stop (before ++ ts) e := by
  rcases conjunction_eq_error_iff.1 h with hfirst | ⟨q, mid, hfirst, hloop⟩
  · exact refuses_of_negation ts hbefore.negation hfirst
  · obtain ⟨used, hts, hused⟩ := takesPart_of_negation ts hfirst
    rw [hts]
    exact refuses_of_conjunctionFrom mid hbefore hused.negation hloop
termination_by (ts.length, 2)
decreasing_by
  · exact Prod.Lex.right _ (by omega)
  · exact Prod.Lex.left _ _ hfirst.shorter

theorem refuses_of_conjunctionFrom (ts : List Token) {before us : List Token} {depth : Nat}
    {left : Predicate Double} {e : ParseError} (hbefore : Awaits .conjunction before depth)
    (hleft : Derives .conjunction us left) (h : conjunctionFrom stop left ts = .error e) :
    Refuses stop (before ++ (us ++ ts)) e := by
  obtain ⟨t, after, hts, ht, hparts⟩ := conjunctionFrom_eq_error_iff.1 h
  have hlength := congrArg List.length hts
  rcases hparts with hright | ⟨q, mid, hq, hloop⟩
  · have hpart := refuses_of_negation after (hbefore.and hleft ht) hright
    simpa [hts] using hpart
  · have hshorter := hq.shorter
    obtain ⟨used, hafter, hused⟩ := takesPart_of_negation after hq
    have hrest := refuses_of_conjunctionFrom mid hbefore (hleft.and ht hused) hloop
    simpa [hts, hafter] using hrest
termination_by (ts.length, 4)
decreasing_by
  · exact Prod.Lex.left _ _ (by rw [hlength]; exact Nat.lt_succ_self _)
  · exact Prod.Lex.left _ _ (by rw [hlength]; exact Nat.lt_succ_of_lt hshorter)

theorem refuses_of_negation (ts : List Token) {before : List Token} {depth : Nat}
    {e : ParseError} (hbefore : Awaits .negation before depth)
    (h : negation stop ts = .error e) : Refuses stop (before ++ ts) e := by
  rcases negation_error h with ⟨rfl, rfl⟩ | ⟨t, after, hts, ⟨ht, hinner⟩ | hterm⟩
  · rw [List.append_nil]
    exact .lacks (.term hbefore)
  · have hlength := congrArg List.length hts
    have hpart := refuses_of_negation after (hbefore.not ht) hinner
    simpa [hts] using hpart
  · have hlength := congrArg List.length hts
    rw [hts]
    exact refuses_of_term t after hbefore.term hterm
termination_by (ts.length, 1)
decreasing_by
  · exact Prod.Lex.left _ _ (by rw [hlength]; exact Nat.lt_succ_self _)
  · rw [hlength]
    exact Prod.Lex.right _ (by omega)

theorem refuses_of_term (t : Token) (after : List Token) {before : List Token} {depth : Nat}
    {e : ParseError} (hbefore : Awaits .term before depth) (h : term stop t after = .error e) :
    Refuses stop (before ++ t :: after) e := by
  rcases term_error h with ⟨ht, hinner | ⟨q, rest, hgroup, hrest, rfl⟩⟩ | ⟨ht, rfl⟩ | hat |
    ⟨k, ht, hsimple⟩ | ⟨ht, hradius | ⟨radius, hradius, hinner⟩⟩
  · have hpart := refuses_of_disjunction after (hbefore.opening ht) hinner
    simpa using hpart
  · obtain ⟨used, hafter, hused⟩ := takesPart_of_disjunction after hgroup
    exact .unclosed (by rw [hafter]) hbefore ht hused hrest
  · exact .noTerm rfl hbefore ht
  · exact .token (hat.mono (by simp))
  · exact refuses_of_readSimple hbefore ht hsimple
  · exact refuses_of_readRadius hbefore ht hradius
  · obtain ⟨u, v, more, hmore, hu, hfinite, hle, hv⟩ := readRadius_eq_ok_iff.1 hradius
    have hpart := refuses_of_negation (after.drop 2) (hbefore.radius ht hu hfinite hle hv) hinner
    simpa [hmore] using hpart
termination_by (after.length + 1, 0)
decreasing_by
  · exact Prod.Lex.left _ _ (Nat.lt_succ_self _)
  · exact Prod.Lex.left _ _ (by simp only [List.length_drop]; omega)

end

/-- **A list of tokens that is not read is refused for a reason**, unless there are no tokens. -/
theorem refuses_of_ofTokens (h : Predicate.ofTokens stop ts = .error e) :
    (ts = [] ∧ e = ⟨0, .empty⟩) ∨ Refuses stop ts e := by
  unfold Predicate.ofTokens at h
  split at h
  · next hempty =>
    cases h
    exact .inl ⟨List.isEmpty_iff.1 hempty, rfl⟩
  · split at h
    · next hread =>
      cases h
      exact .inr (refuses_of_disjunction ts .start hread)
    · next whole hwhole =>
      obtain ⟨p, rest, hshorter⟩ := whole
      obtain ⟨used, hts, hused⟩ := takesPart_of_disjunction ts ⟨hshorter, hwhole⟩
      dsimp only at h
      split at h
      · cases h
      · next t rest =>
        split at h
        · next hclosing =>
          cases h
          exact .inr (.unopened hts hused hclosing)
        · cases h
          refine .inr (.token ?_)
          rw [hts]
          exact (isAtToken_head (by trivial) rfl rest).mono (List.subset_append_right _ _)

end Honeycomb.Selection
