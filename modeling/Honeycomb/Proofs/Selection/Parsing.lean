import Mathlib
import Honeycomb.Proofs.Selection.Grammar

/-!
# Reading selections follows the grammar

* `Gives`, `GoesOn` — what a reader or the loop of a reader has read, and what it leaves.
* `joinAll`, `joinNext` — what disjunctions and conjunctions share.
* `gives_disjunction_iff`, …, `gives_term_radius_iff` — what each reader does, in terms of the
  readers that it calls.
* `takesPart_of_disjunction` and its companions — what a reader takes is a part of its level, by
  induction on the number of tokens.
* `isReadAs_of_derives` — what the grammar has be a part of some level is read, by induction on
  the derivation.

Principal result: `ofTokens_iff_derives` — a list of tokens is read as a predicate exactly if it
derives it, and no list derives two.
-/

set_option autoImplicit false

namespace Honeycomb.Selection

/-! ## What readers give -/

/-- A reader has read a predicate and left some tokens. -/
def Gives {ts : List Token} (o : Outcome ts) (p : Predicate Double) (rest : List Token) : Prop :=
  ∃ h, o = .ok ⟨p, rest, h⟩

/-- What a loop makes of `ts`. -/
abbrev LoopOutcome (ts : List Token) :=
  Except ParseError (Predicate Double × { rest : List Token // rest.length ≤ ts.length })

/-- A loop has gone on to a predicate and left some tokens. -/
def GoesOn {ts : List Token} (o : LoopOutcome ts) (p : Predicate Double) (rest : List Token) :
    Prop :=
  ∃ h, o = .ok (p, ⟨rest, h⟩)

variable {stop : Nat} {t : Token} {ts after rest : List Token} {left p : Predicate Double}

theorem Gives.shorter {o : Outcome ts} (h : Gives o p rest) : rest.length < ts.length :=
  h.1

/-! ## Parts joined by a connective -/

theorem Parsed.lt_of_le {ts rest : List Token} (first : Parsed ts)
    (h : rest.length ≤ first.rest.length) : rest.length < ts.length :=
  Nat.lt_of_le_of_lt h first.shorter

theorem Parsed.le_cons_of_le {t : Token} {after rest : List Token} (right : Parsed after)
    (h : rest.length ≤ right.rest.length) : rest.length ≤ (t :: after).length :=
  Nat.le_trans h (Nat.le_succ_of_le (Nat.le_of_lt right.shorter))

/-- A loop that ends here leaves all tokens. -/
def LoopOutcome.ended (left : Predicate Double) (ts : List Token) : LoopOutcome ts :=
  .ok (left, ⟨ts, Nat.le_refl _⟩)

section

variable (k : Keyword) (readPart : (ts : List Token) → Outcome ts)
  (join : Predicate Double → Predicate Double → Predicate Double)
  (goOn : Predicate Double → (ts : List Token) → LoopOutcome ts)

/-- A part, and what a loop joins to it. -/
def joinAll (ts : List Token) : Outcome ts :=
  match readPart ts with
  | .error e => .error e
  | .ok first =>
    match goOn first.predicate first.rest with
    | .error e => .error e
    | .ok (p, ⟨rest, h⟩) => .ok ⟨p, rest, first.lt_of_le h⟩

/-- One round of a loop: behind the connective there is another part. -/
def joinNext (left : Predicate Double) : (ts : List Token) → LoopOutcome ts
  | [] => .ended left []
  | t :: after =>
    if t.keyword? = some k then
      match readPart after with
      | .error e => .error e
      | .ok right =>
        match goOn (join left right.predicate) right.rest with
        | .error e => .error e
        | .ok (p, ⟨rest, h⟩) => .ok (p, ⟨rest, right.le_cons_of_le h⟩)
    else .ended left (t :: after)

theorem gives_joinAll_iff : Gives (joinAll readPart goOn ts) p rest ↔
    ∃ q mid, Gives (readPart ts) q mid ∧ GoesOn (goOn q mid) p rest := by
  unfold Gives GoesOn joinAll
  constructor
  · rintro ⟨h, heq⟩
    split at heq
    · cases heq
    · rename_i first hfirst
      split at heq
      · cases heq
      · rename_i hloop
        cases heq
        exact ⟨first.predicate, first.rest, ⟨first.shorter, hfirst⟩, _, hloop⟩
  · rintro ⟨q, mid, ⟨hmid, hfirst⟩, hrest, hloop⟩
    refine ⟨hrest.trans_lt hmid, ?_⟩
    rw [hfirst]
    dsimp only
    rw [hloop]

theorem goesOn_joinNext_iff : GoesOn (joinNext k readPart join goOn left ts) p rest ↔
    (startsWith k ts = false ∧ p = left ∧ rest = ts) ∨
      ∃ t after q mid, ts = t :: after ∧ t.IsWord k.text ∧ Gives (readPart after) q mid ∧
        GoesOn (goOn (join left q) mid) p rest := by
  unfold GoesOn Gives
  cases ts with
  | nil =>
    unfold joinNext LoopOutcome.ended
    simp [startsWith, eq_comm]
  | cons t after =>
    unfold joinNext LoopOutcome.ended
    dsimp only
    split
    · rename_i hkeyword
      have hstart : startsWith k (t :: after) = true := by simp [startsWith, hkeyword]
      constructor
      · rintro ⟨h, heq⟩
        split at heq
        · cases heq
        · rename_i right hright
          split at heq
          · cases heq
          · rename_i hloop
            cases heq
            exact .inr ⟨t, after, right.predicate, right.rest, rfl,
              Token.keyword?_eq_some_iff.1 hkeyword, ⟨right.shorter, hright⟩, _, hloop⟩
      · rintro (⟨hno, -⟩ | ⟨t', after', q, mid, hts, -, ⟨hmid, hright⟩, hrest, hloop⟩)
        · rw [hstart] at hno
          cases hno
        · cases hts
          refine ⟨hrest.trans (Nat.le_succ_of_le hmid.le), ?_⟩
          rw [hright]
          dsimp only
          rw [hloop]
    · rename_i hkeyword
      have hstart : startsWith k (t :: after) = false := by simpa [startsWith] using hkeyword
      constructor
      · rintro ⟨h, heq⟩
        cases heq
        exact .inl ⟨hstart, rfl, rfl⟩
      · rintro (⟨-, rfl, rfl⟩ | ⟨t', after', q, mid, hts, hword, -⟩)
        · exact ⟨le_rfl, rfl⟩
        · cases hts
          exact absurd (Token.keyword?_eq_some_iff.2 hword) hkeyword

end

theorem gives_disjunction_iff : Gives (disjunction stop ts) p rest ↔ ∃ q mid,
    Gives (conjunction stop ts) q mid ∧ GoesOn (disjunctionFrom stop q mid) p rest := by
  rw [disjunction]
  exact gives_joinAll_iff (conjunction stop) (disjunctionFrom stop)

theorem goesOn_disjunctionFrom_iff : GoesOn (disjunctionFrom stop left ts) p rest ↔
    (startsWith .or ts = false ∧ p = left ∧ rest = ts) ∨
      ∃ t after q mid, ts = t :: after ∧ t.IsWord "or" ∧ Gives (conjunction stop after) q mid ∧
        GoesOn (disjunctionFrom stop (.or left q) mid) p rest := by
  rw [disjunctionFrom.eq_def]
  exact goesOn_joinNext_iff .or (conjunction stop) .or (disjunctionFrom stop)

theorem gives_conjunction_iff : Gives (conjunction stop ts) p rest ↔ ∃ q mid,
    Gives (negation stop ts) q mid ∧ GoesOn (conjunctionFrom stop q mid) p rest := by
  rw [conjunction]
  exact gives_joinAll_iff (negation stop) (conjunctionFrom stop)

theorem goesOn_conjunctionFrom_iff : GoesOn (conjunctionFrom stop left ts) p rest ↔
    (startsWith .and ts = false ∧ p = left ∧ rest = ts) ∨
      ∃ t after q mid, ts = t :: after ∧ t.IsWord "and" ∧ Gives (negation stop after) q mid ∧
        GoesOn (conjunctionFrom stop (.and left q) mid) p rest := by
  rw [conjunctionFrom.eq_def]
  exact goesOn_joinNext_iff .and (negation stop) .and (conjunctionFrom stop)

/-! ## Negations and terms -/

theorem gives_negation_iff : Gives (negation stop ts) p rest ↔ ∃ t after, ts = t :: after ∧
    ((t.IsWord "not" ∧ ∃ q, p = .not q ∧ Gives (negation stop after) q rest) ∨
      (¬t.IsWord "not" ∧ Gives (term stop t after) p rest)) := by
  cases ts with
  | nil =>
    unfold Gives
    rw [negation]
    simp
  | cons t after =>
    unfold Gives
    rw [negation]
    split
    · rename_i hkeyword
      have hword : t.IsWord "not" := Token.keyword?_eq_some_iff.1 hkeyword
      constructor
      · rintro ⟨h, heq⟩
        split at heq
        · cases heq
        · rename_i inner hinner
          cases heq
          exact ⟨t, after, rfl, .inl ⟨hword, inner.predicate, rfl, inner.shorter, hinner⟩⟩
      · rintro ⟨t', after', hts, ⟨-, q, rfl, hrest, hinner⟩ | ⟨hno, -⟩⟩
        · cases hts
          refine ⟨Nat.lt_succ_of_lt hrest, ?_⟩
          rw [hinner]
        · cases hts
          exact absurd hword hno
    · rename_i hkeyword
      have hno : ¬t.IsWord "not" := fun h => hkeyword (Token.keyword?_eq_some_iff.2 h)
      constructor
      · intro h
        exact ⟨t, after, rfl, .inr ⟨hno, h⟩⟩
      · rintro ⟨t', after', hts, ⟨hword, -⟩ | ⟨-, h⟩⟩
        · cases hts
          exact absurd hword hno
        · cases hts
          exact h

/-- A term starts with a parenthesis or with a keyword. -/
theorem opening_or_keyword_of_gives (h : Gives (term stop t after) p rest) :
    t.lexeme = .opening ∨ ∃ k : Keyword, t.IsWord k.text := by
  obtain ⟨h, heq⟩ := h
  rw [term] at heq
  split at heq
  · rename_i hopening
    exact .inl hopening
  · cases heq
  · cases heq
  · cases heq
  · rename_i w hword
    split at heq
    · cases heq
    · rename_i k hkeyword
      exact .inr ⟨k, ofWord?_eq_some_iff.1 hkeyword ▸ hword⟩

theorem gives_term_opening_iff (ht : t.lexeme = .opening) : Gives (term stop t after) p rest ↔
    ∃ u, u.lexeme = .closing ∧ Gives (disjunction stop after) p (u :: rest) := by
  unfold Gives
  rw [term, ht]
  dsimp only
  constructor
  · rintro ⟨h, heq⟩
    split at heq
    · cases heq
    · rename_i inner hinner
      split at heq
      · cases heq
        exact ⟨_, rfl, _, hinner⟩
      · cases heq
  · rintro ⟨⟨_, at_⟩, hu, h, hinner⟩
    cases hu
    refine ⟨Nat.lt_succ_of_lt (Nat.lt_of_succ_lt h), ?_⟩
    rw [hinner]

/-- A term that holds no other predicate. -/
theorem gives_term_simple_iff {k : Keyword} {o : Except ParseError (Predicate Double × Nat)}
    (ht : t.IsWord k.text) (hsimple : readSimple stop k t.position after = some o) :
    Gives (term stop t after) p rest ↔ ∃ used, o = .ok (p, used) ∧ rest = after.drop used := by
  have hlexeme : t.lexeme = .word k.text := ht
  unfold Gives
  rw [term, hlexeme]
  dsimp only
  rw [Keyword.ofWord?_text]
  dsimp only
  rw [hsimple]
  cases o with
  | error e => simp
  | ok r =>
    obtain ⟨q, used⟩ := r
    constructor
    · rintro ⟨h, heq⟩
      cases heq
      exact ⟨used, rfl, rfl⟩
    · rintro ⟨used', hused, rfl⟩
      cases hused
      exact ⟨by simp only [List.length_drop, List.length_cons]; omega, rfl⟩

/-- A term with a radius and another predicate. -/
theorem gives_term_radius_iff {k : Keyword} (ht : t.IsWord k.text)
    (hsimple : readSimple stop k t.position after = none) :
    Gives (term stop t after) p rest ↔ ∃ radius q, readRadius stop after = .ok radius ∧
      Gives (negation stop (after.drop 2)) q rest ∧
        (k = .within ∧ p = .within radius q ∨ k = .exwithin ∧ p = .exwithin radius q) := by
  have hlexeme : t.lexeme = .word k.text := ht
  unfold Gives
  rw [term, hlexeme]
  dsimp only
  rw [Keyword.ofWord?_text]
  dsimp only
  rw [hsimple]
  constructor
  · rintro ⟨h, heq⟩
    dsimp only at heq
    split at heq
    · rename_i hk
      split at heq
      · cases heq
      · rename_i radius hradius
        split at heq
        · cases heq
        · rename_i inner hinner
          cases heq
          refine ⟨radius, inner.predicate, hradius, ⟨inner.shorter, hinner⟩, ?_⟩
          rcases hk with rfl | rfl
          · exact .inl ⟨rfl, rfl⟩
          · exact .inr ⟨rfl, rfl⟩
    · cases heq
  · rintro ⟨radius, q, hradius, ⟨h, hinner⟩, hk⟩
    have hlt : rest.length < (t :: after).length := by
      simp only [List.length_drop] at h
      simp only [List.length_cons]
      omega
    refine ⟨hlt, ?_⟩
    rcases hk with ⟨rfl, rfl⟩ | ⟨rfl, rfl⟩
    · dsimp only
      rw [if_pos (.inl rfl), hradius]
      dsimp only
      rw [hinner]
      rfl
    · dsimp only
      rw [if_pos (.inr rfl), hradius]
      dsimp only
      rw [hinner]
      rfl

/-! ## What is read follows the grammar -/

/-- A part of some level has been taken off the front. -/
def TakesPart (level : Level) (ts : List Token) (p : Predicate Double) (rest : List Token) : Prop :=
  ∃ used, ts = used ++ rest ∧ Derives level used p

/-- What has been taken off the front makes a part of some level of the tokens before it. -/
def ExtendsPart (level : Level) (before ts : List Token) (p : Predicate Double)
    (rest : List Token) : Prop :=
  ∃ used, ts = used ++ rest ∧ Derives level (before ++ used) p

mutual

theorem takesPart_of_disjunction (ts : List Token) {p : Predicate Double} {rest : List Token}
    (h : Gives (disjunction stop ts) p rest) : TakesPart .disjunction ts p rest := by
  obtain ⟨q, mid, hfirst, hloop⟩ := gives_disjunction_iff.1 h
  obtain ⟨used, hts, hused⟩ := takesPart_of_conjunction ts hfirst
  obtain ⟨more, hmid, hmore⟩ := extendsPart_of_disjunctionFrom mid hused.conjunction hloop
  exact ⟨used ++ more, by rw [hts, hmid, List.append_assoc], hmore⟩
termination_by (ts.length, 3)
decreasing_by
  · exact Prod.Lex.right _ (by omega)
  · exact Prod.Lex.left _ _ hfirst.shorter

theorem extendsPart_of_disjunctionFrom (ts : List Token) {left p : Predicate Double}
    {before rest : List Token} (hleft : Derives .disjunction before left)
    (h : GoesOn (disjunctionFrom stop left ts) p rest) :
    ExtendsPart .disjunction before ts p rest := by
  rcases goesOn_disjunctionFrom_iff.1 h with ⟨-, rfl, rfl⟩ | ⟨t, after, q, mid, hts, ht, hq, hloop⟩
  · exact ⟨[], rfl, by rwa [List.append_nil]⟩
  · have hshorter := hq.shorter
    have hlength := congrArg List.length hts
    obtain ⟨used, hafter, hused⟩ := takesPart_of_conjunction after hq
    obtain ⟨more, hmid, hmore⟩ := extendsPart_of_disjunctionFrom mid (hleft.or ht hused) hloop
    refine ⟨t :: used ++ more, ?_, ?_⟩
    · rw [hts, hafter, hmid, List.cons_append, List.cons_append, List.append_assoc]
    · rwa [← List.append_assoc]
termination_by (ts.length, 4)
decreasing_by
  · exact Prod.Lex.left _ _ (by rw [hlength]; exact Nat.lt_succ_self _)
  · exact Prod.Lex.left _ _ (by rw [hlength]; exact Nat.lt_succ_of_lt hshorter)

theorem takesPart_of_conjunction (ts : List Token) {p : Predicate Double} {rest : List Token}
    (h : Gives (conjunction stop ts) p rest) : TakesPart .conjunction ts p rest := by
  obtain ⟨q, mid, hfirst, hloop⟩ := gives_conjunction_iff.1 h
  obtain ⟨used, hts, hused⟩ := takesPart_of_negation ts hfirst
  obtain ⟨more, hmid, hmore⟩ := extendsPart_of_conjunctionFrom mid hused.negation hloop
  exact ⟨used ++ more, by rw [hts, hmid, List.append_assoc], hmore⟩
termination_by (ts.length, 2)
decreasing_by
  · exact Prod.Lex.right _ (by omega)
  · exact Prod.Lex.left _ _ hfirst.shorter

theorem extendsPart_of_conjunctionFrom (ts : List Token) {left p : Predicate Double}
    {before rest : List Token} (hleft : Derives .conjunction before left)
    (h : GoesOn (conjunctionFrom stop left ts) p rest) :
    ExtendsPart .conjunction before ts p rest := by
  rcases goesOn_conjunctionFrom_iff.1 h with ⟨-, rfl, rfl⟩ | ⟨t, after, q, mid, hts, ht, hq, hloop⟩
  · exact ⟨[], rfl, by rwa [List.append_nil]⟩
  · have hshorter := hq.shorter
    have hlength := congrArg List.length hts
    obtain ⟨used, hafter, hused⟩ := takesPart_of_negation after hq
    obtain ⟨more, hmid, hmore⟩ := extendsPart_of_conjunctionFrom mid (hleft.and ht hused) hloop
    refine ⟨t :: used ++ more, ?_, ?_⟩
    · rw [hts, hafter, hmid, List.cons_append, List.cons_append, List.append_assoc]
    · rwa [← List.append_assoc]
termination_by (ts.length, 4)
decreasing_by
  · exact Prod.Lex.left _ _ (by rw [hlength]; exact Nat.lt_succ_self _)
  · exact Prod.Lex.left _ _ (by rw [hlength]; exact Nat.lt_succ_of_lt hshorter)

theorem takesPart_of_negation (ts : List Token) {p : Predicate Double} {rest : List Token}
    (h : Gives (negation stop ts) p rest) : TakesPart .negation ts p rest := by
  obtain ⟨t, after, hts, ⟨ht, q, hp, hq⟩ | ⟨-, hterm⟩⟩ := gives_negation_iff.1 h
  · have hlength := congrArg List.length hts
    obtain ⟨used, hafter, hused⟩ := takesPart_of_negation after hq
    exact ⟨t :: used, by rw [hts, hafter, List.cons_append], hp ▸ .not ht hused⟩
  · have hlength := congrArg List.length hts
    obtain ⟨used, hused, hderives⟩ := takesPart_of_term t after hterm
    exact ⟨used, hts.trans hused, .term hderives⟩
termination_by (ts.length, 1)
decreasing_by
  · exact Prod.Lex.left _ _ (by rw [hlength]; exact Nat.lt_succ_self _)
  · rw [hlength]
    exact Prod.Lex.right _ (by omega)

theorem takesPart_of_term (t : Token) (after : List Token) {p : Predicate Double}
    {rest : List Token} (h : Gives (term stop t after) p rest) :
    TakesPart .term (t :: after) p rest := by
  rcases opening_or_keyword_of_gives h with ht | ⟨k, ht⟩
  · obtain ⟨u, hu, hinner⟩ := (gives_term_opening_iff ht).1 h
    obtain ⟨used, hafter, hused⟩ := takesPart_of_disjunction after hinner
    refine ⟨t :: (used ++ [u]), ?_, .parentheses ht hused hu⟩
    rw [hafter, List.cons_append, List.append_assoc, List.singleton_append]
  · cases hsimple : readSimple stop k t.position after with
    | some o =>
      obtain ⟨used, rfl, hrest⟩ := (gives_term_simple_iff ht hsimple).1 h
      refine ⟨t :: after.take used, ?_, derives_of_readSimple ht hsimple⟩
      rw [hrest, List.cons_append, List.take_append_drop]
    | none =>
      obtain ⟨radius, q, hradius, hq, hk⟩ := (gives_term_radius_iff ht hsimple).1 h
      obtain ⟨used, hafter, hused⟩ := takesPart_of_negation (after.drop 2) hq
      obtain ⟨u, v, more, hmore, hu, hfinite, hle, hv⟩ := readRadius_eq_ok_iff.1 hradius
      rw [hmore, List.drop_succ_cons, List.drop_succ_cons, List.drop_zero] at hafter
      refine ⟨t :: u :: v :: used, by rw [hmore, hafter]; rfl, ?_⟩
      rcases hk with ⟨rfl, rfl⟩ | ⟨rfl, rfl⟩
      · exact .within ht hu hfinite hle hv hused
      · exact .exwithin ht hu hfinite hle hv hused
termination_by (after.length + 1, 0)
decreasing_by
  · exact Prod.Lex.left _ _ (Nat.lt_succ_self _)
  · exact Prod.Lex.left _ _ (by simp only [List.length_drop]; omega)

end

/-! ## What follows the grammar is read -/

theorem startsWith_eq_false {k : Keyword} (h : ∀ t ∈ ts.head?, ¬t.IsWord k.text) :
    startsWith k ts = false := by
  rw [← Bool.not_eq_true, startsWith_iff]
  rintro ⟨t, rest, rfl, ht⟩
  exact h t rfl ht

/-- A loop ends where its connective does not come next. -/
theorem goesOn_disjunctionFrom_self (h : startsWith .or ts = false) :
    GoesOn (disjunctionFrom stop left ts) left ts :=
  goesOn_disjunctionFrom_iff.2 (.inl ⟨h, rfl, rfl⟩)

theorem goesOn_conjunctionFrom_self (h : startsWith .and ts = false) :
    GoesOn (conjunctionFrom stop left ts) left ts :=
  goesOn_conjunctionFrom_iff.2 (.inl ⟨h, rfl, rfl⟩)

/-- The reader of a level reads some tokens as a part of that level, whatever comes next, as long
as it does not continue the part. What the reader of a disjunction or of a conjunction has read so
far is the left side for its loop. -/
def IsReadAs (stop : Nat) : Level → List Token → Predicate Double → Prop
  | .disjunction, ts, p => ∀ next q rest, Stops next → startsWith .and next = false →
      GoesOn (disjunctionFrom stop p next) q rest → Gives (disjunction stop (ts ++ next)) q rest
  | .conjunction, ts, p => ∀ next q rest, Stops next →
      GoesOn (conjunctionFrom stop p next) q rest → Gives (conjunction stop (ts ++ next)) q rest
  | .negation, ts, p => ∀ next, Stops next → Gives (negation stop (ts ++ next)) p next
  | .term, ts, p => ∀ next, Stops next → ∃ t after, ts = t :: after ∧ ¬t.IsWord "not" ∧
      Gives (term stop t (after ++ next)) p next

/-- A term from its keyword on. -/
theorem isReadAs_term {k : Keyword} (ht : t.IsWord k.text) (hk : k ≠ .not)
    (h : ∀ next, Stops next → Gives (term stop t (after ++ next)) p next) :
    IsReadAs stop .term (t :: after) p := by
  intro next hnext
  refine ⟨t, after, rfl, fun hnot => hk ?_, h next hnext⟩
  rw [← Token.keyword?_eq_some_iff] at ht
  have hnot : t.keyword? = some .not := Token.keyword?_eq_some_iff.2 hnot
  exact Option.some.inj (ht.symm.trans hnot)

/-- A term that holds no other predicate, from its keyword on. -/
theorem isReadAs_simple {k : Keyword} (ht : t.IsWord k.text) (hk : k ≠ .not)
    (h : ∀ next, Stops next →
      readSimple stop k t.position (after ++ next) = some (.ok (p, after.length))) :
    IsReadAs stop .term (t :: after) p :=
  isReadAs_term ht hk fun next hstops =>
    (gives_term_simple_iff ht (h next hstops)).2 ⟨after.length, rfl, List.drop_left.symm⟩

/-- A term with a radius and another predicate, from its keyword on. -/
theorem gives_term_radius {k : Keyword} {u v : Token} {radius : Double} {q : Predicate Double}
    (ht : t.IsWord k.text) (hk : k = .within ∧ p = .within radius q ∨
      k = .exwithin ∧ p = .exwithin radius q)
    (hu : u.IsNumber radius) (hfinite : radius.isFinite = true) (hle : 0 ≤ radius)
    (hv : v.IsWord "of") (h : Gives (negation stop after) q rest) :
    Gives (term stop t (u :: v :: after)) p rest := by
  have hsimple : readSimple stop k t.position (u :: v :: after) = none := by
    rcases hk with ⟨rfl, -⟩ | ⟨rfl, -⟩
    · obtain ⟨w, hw, -⟩ := hu
      exact readSimple_within_eq_none_iff.2 (leadingCall?_of_isWord hw)
    · rfl
  have hradius : readRadius stop (u :: v :: after) = .ok radius :=
    readRadius_eq_ok_iff.2 ⟨u, v, after, rfl, hu, hfinite, hle, hv⟩
  exact (gives_term_radius_iff ht hsimple).2 ⟨radius, q, hradius, h, hk⟩

/-- **What follows the grammar is read**, as a part of its level. -/
theorem isReadAs_of_derives (stop : Nat) {level : Level} (h : Derives level ts p) :
    IsReadAs stop level ts p := by
  induction h with
  | conjunction _ ih =>
    intro next q rest hstops hand hloop
    exact gives_disjunction_iff.2 ⟨_, next, ih next _ _ hstops (goesOn_conjunctionFrom_self hand),
      hloop⟩
  | @or ts us t p q _ ht _ ihleft ihright =>
    intro next r rest hstops hand hloop
    rw [List.append_assoc, List.cons_append]
    refine ihleft _ _ _ (stops_of_isWord (k := .or) ht _) ?_ ?_
    · refine startsWith_eq_false fun u hu hword => ?_
      cases hu
      exact absurd (ht.unique hword) (by decide)
    · exact goesOn_disjunctionFrom_iff.2 (.inr ⟨t, us ++ next, q, next, rfl, ht,
        ihright _ _ _ hstops (goesOn_conjunctionFrom_self hand), hloop⟩)
  | negation _ ih =>
    intro next q rest hstops hloop
    exact gives_conjunction_iff.2 ⟨_, next, ih next hstops, hloop⟩
  | @and ts us t p q _ ht _ ihleft ihright =>
    intro next r rest hstops hloop
    rw [List.append_assoc, List.cons_append]
    refine ihleft _ _ _ (stops_of_isWord (k := .and) ht _) ?_
    exact goesOn_conjunctionFrom_iff.2 (.inr ⟨t, us ++ next, q, next, rfl, ht, ihright _ hstops,
      hloop⟩)
  | term _ ih =>
    intro next hstops
    obtain ⟨t, after, rfl, hnot, hterm⟩ := ih next hstops
    exact gives_negation_iff.2 ⟨t, after ++ next, rfl, .inr ⟨hnot, hterm⟩⟩
  | not ht _ ih =>
    intro next hstops
    exact gives_negation_iff.2 ⟨_, _, rfl, .inl ⟨ht, _, rfl, ih next hstops⟩⟩
  | @parentheses ts t u p ht _ hu ih =>
    intro next _
    refine ⟨t, ts ++ [u], rfl, fun hnot => ?_, (gives_term_opening_iff ht).2 ⟨u, hu, ?_⟩⟩
    · cases ht.symm.trans hnot
    · have hnone : ∀ k : Keyword, startsWith k (u :: next) = false := by
        refine fun k => startsWith_eq_false fun v hv hword => ?_
        cases hv
        cases hu.symm.trans hword
      rw [List.append_assoc, List.singleton_append]
      exact ih _ _ _ (stops_of_closing hu next) (hnone .and)
        (goesOn_disjunctionFrom_self (hnone .or))
  | all ht => exact isReadAs_simple (k := .all) ht (by decide) fun _ _ => rfl
  | nothing ht => exact isReadAs_simple (k := .nothing) ht (by decide) fun _ _ => rfl
  | id ht hns hne =>
    refine isReadAs_simple (k := .id) ht (by decide) fun next hstops => ?_
    rw [readSimple, readCounts_append hns hne hstops, hns.length_eq]
    rfl
  | molecule ht hns hne =>
    refine isReadAs_simple (k := .molecule) ht (by decide) fun next hstops => ?_
    rw [readSimple, readCounts_append hns hne hstops, hns.length_eq]
    rfl
  | type ht hns hne =>
    refine isReadAs_simple (k := .type) ht (by decide) fun next hstops => ?_
    rw [readSimple, readCounts_append hns hne hstops, hns.length_eq]
    rfl
  | element ht hsymbols hne =>
    refine isReadAs_simple (k := .element) ht (by decide) fun next hstops => ?_
    rw [readSimple, readElements_append hsymbols hne hstops, hsymbols.length_eq]
    rfl
  | @compare t u v axis comparison a ht hu hv =>
    refine isReadAs_simple (k := .coordinate axis) ht (by simp) fun next _ => ?_
    rw [readSimple, List.cons_append, List.singleton_append,
      readComparison_eq_ok_iff.2 ⟨u, v, next, rfl, hu, hv⟩]
    rfl
  | @inside t u name arguments region ht hu hregion =>
    refine isReadAs_simple (k := .within) ht (by decide) fun next _ => ?_
    obtain ⟨_, at_⟩ := u
    cases hu
    rw [readSimple, List.singleton_append, leadingCall?_eq_some_iff.2 ⟨next, rfl⟩,
      Option.map_some]
    dsimp only
    rw [hregion]
    rfl
  | within ht hu hfinite hle hv _ ih =>
    refine isReadAs_term (k := .within) ht (by decide) fun next hstops => ?_
    exact gives_term_radius (k := .within) ht (.inl ⟨rfl, rfl⟩) hu hfinite hle hv (ih next hstops)
  | exwithin ht hu hfinite hle hv _ ih =>
    refine isReadAs_term (k := .exwithin) ht (by decide) fun next hstops => ?_
    exact gives_term_radius (k := .exwithin) ht (.inr ⟨rfl, rfl⟩) hu hfinite hle hv
      (ih next hstops)

/-! ## Selections -/

/-- The reader of selections reads a disjunction and leaves nothing. -/
theorem ofTokens_eq_ok_iff :
    Predicate.ofTokens stop ts = .ok p ↔ Gives (disjunction stop ts) p [] := by
  unfold Predicate.ofTokens
  constructor
  · intro h
    split at h
    · cases h
    · split at h
      · cases h
      · rename_i whole hwhole
        split at h
        · rename_i hrest
          cases h
          obtain ⟨p, rest, hshorter⟩ := whole
          cases hrest
          exact ⟨hshorter, hwhole⟩
        · split at h <;> cases h
  · rintro ⟨h, hok⟩
    rw [if_neg, hok]
    rw [List.isEmpty_iff]
    rintro rfl
    cases h

/-- **A list of tokens is read exactly if it follows the grammar**, and then as what the grammar
has it be. There is one such predicate at most. -/
theorem ofTokens_iff_derives (stop : Nat) (ts : List Token) :
    (∀ p, Predicate.ofTokens stop ts = .ok p ↔ Derives .disjunction ts p) ∧
      ∀ p q, Derives .disjunction ts p → Derives .disjunction ts q → p = q := by
  have hiff (p : Predicate Double) :
      Predicate.ofTokens stop ts = .ok p ↔ Derives .disjunction ts p := by
    rw [ofTokens_eq_ok_iff]
    constructor
    · intro h
      obtain ⟨used, hts, hused⟩ := takesPart_of_disjunction ts h
      rwa [hts, List.append_nil]
    · intro h
      have hread := isReadAs_of_derives stop h [] p [] stops_nil rfl
        (goesOn_disjunctionFrom_self rfl)
      rwa [List.append_nil] at hread
  refine ⟨hiff, fun p q hp hq => ?_⟩
  rw [← hiff] at hp hq
  exact Except.ok.inj (hp.symm.trans hq)

end Honeycomb.Selection
