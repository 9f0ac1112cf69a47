import Mathlib
import Honeycomb.Selection.Parser
import Honeycomb.Proofs.Outcome

/-!
# The grammar of selections

The grammar as a relation of lists of tokens and predicates, written without the reader.

* `Level`, `Derives` — what a list of tokens is on each level of binding, and its predicate.
* `keyword?_eq_some_iff`, `count?_eq_some_iff`, `element?_eq_some_iff` — the tests of the reader
  are those of the grammar.
* `Stops` — no list of counts or elements goes on where a keyword, or no word at all, comes next.
* `leading_append`, `forall₂_leading` — lists are read as far as they go, and no further.

* `readCounts_append`, `readElements_append`, `readComparison_eq_ok_iff`, `readRadius_eq_ok_iff` —
  the parts of terms are read as the grammar has them.

Principal result: `derives_of_readSimple` — what is read as a term that holds no other predicate
is one.
-/

set_option autoImplicit false

namespace Honeycomb.Selection

/-! ## Tokens -/

namespace Token

/-- The token is a certain word. -/
def IsWord (t : Token) (w : String) : Prop :=
  t.lexeme = .word w

/-- The token is a word that reads as an unsigned integer. -/
def IsCount (t : Token) (n : Nat) : Prop :=
  ∃ w, t.IsWord w ∧ readCount w.toList = some n

/-- The token is a word that reads as a number. -/
def IsNumber (t : Token) (a : Double) : Prop :=
  ∃ w, t.IsWord w ∧ readDouble w.toList = some a

/-- The token is a word other than the keywords that is a symbol of the table of elements or an
atomic number there, or at least has the form of a symbol. -/
def IsElement (t : Token) (symbol : String) : Prop :=
  ∃ w, t.IsWord w ∧ (∀ k : Keyword, w ≠ k.text) ∧
    ((∃ e, Element.ofToken? w.toList = some e ∧ symbol = e.symbol) ∨
      Element.ofToken? w.toList = none ∧ isSymbolShaped w = true ∧ symbol = w)

end Token

/-! ## The grammar -/

/-- How tightly a part of a selection binds, from the loosest to the tightest. -/
inductive Level where
  | disjunction
  | conjunction
  | negation
  | term

/-- **The grammar.** A list of tokens is a part of a selection of some level that means a
predicate. -/
inductive Derives : Level → List Token → Predicate Double → Prop
  | conjunction {ts : List Token} {p : Predicate Double} :
    Derives .conjunction ts p → Derives .disjunction ts p
  | or {ts us : List Token} {t : Token} {p q : Predicate Double} :
    Derives .disjunction ts p → t.IsWord "or" → Derives .conjunction us q →
      Derives .disjunction (ts ++ t :: us) (.or p q)
  | negation {ts : List Token} {p : Predicate Double} :
    Derives .negation ts p → Derives .conjunction ts p
  | and {ts us : List Token} {t : Token} {p q : Predicate Double} :
    Derives .conjunction ts p → t.IsWord "and" → Derives .negation us q →
      Derives .conjunction (ts ++ t :: us) (.and p q)
  | term {ts : List Token} {p : Predicate Double} :
    Derives .term ts p → Derives .negation ts p
  | not {ts : List Token} {t : Token} {p : Predicate Double} :
    t.IsWord "not" → Derives .negation ts p → Derives .negation (t :: ts) (.not p)
  | parentheses {ts : List Token} {t u : Token} {p : Predicate Double} :
    t.lexeme = .opening → Derives .disjunction ts p → u.lexeme = .closing →
      Derives .term (t :: (ts ++ [u])) p
  | all {t : Token} : t.IsWord "all" → Derives .term [t] .all
  | nothing {t : Token} : t.IsWord "none" → Derives .term [t] .nothing
  | id {ts : List Token} {t : Token} {ns : List Nat} :
    t.IsWord "id" → List.Forall₂ Token.IsCount ts ns → ns ≠ [] → Derives .term (t :: ts) (.id ns)
  | molecule {ts : List Token} {t : Token} {ns : List Nat} :
    t.IsWord "molid" → List.Forall₂ Token.IsCount ts ns → ns ≠ [] →
      Derives .term (t :: ts) (.molecule ns)
  | type {ts : List Token} {t : Token} {ns : List Nat} :
    t.IsWord "type" → List.Forall₂ Token.IsCount ts ns → ns ≠ [] →
      Derives .term (t :: ts) (.type ns)
  | element {ts : List Token} {t : Token} {symbols : List String} :
    t.IsWord "element" → List.Forall₂ Token.IsElement ts symbols → symbols ≠ [] →
      Derives .term (t :: ts) (.element symbols)
  | compare {t u v : Token} {axis : Axis} {comparison : Comparison} {a : Double} :
    t.IsWord axis.name → u.lexeme = .comparison comparison → v.IsNumber a →
      Derives .term [t, u, v] (.compare axis comparison a)
  | inside {t u : Token} {name arguments : String} {region : Region Double} :
    t.IsWord "within" → u.lexeme = .call name arguments →
      readRegion name arguments = .ok region → Derives .term [t, u] (.inside region)
  | within {ts : List Token} {t u v : Token} {radius : Double} {p : Predicate Double} :
    t.IsWord "within" → u.IsNumber radius → radius.isFinite = true → 0 ≤ radius →
      v.IsWord "of" → Derives .negation ts p →
        Derives .term (t :: u :: v :: ts) (.within radius p)
  | exwithin {ts : List Token} {t u v : Token} {radius : Double} {p : Predicate Double} :
    t.IsWord "exwithin" → u.IsNumber radius → radius.isFinite = true → 0 ≤ radius →
      v.IsWord "of" → Derives .negation ts p →
        Derives .term (t :: u :: v :: ts) (.exwithin radius p)

/-! ## Tests of tokens -/

theorem ofWord?_eq_some_iff {w : String} {k : Keyword} :
    Keyword.ofWord? w = some k ↔ w = k.text := by
  constructor
  · intro h
    exact (Keyword.text_of_ofWord? h).symm
  · rintro rfl
    exact Keyword.ofWord?_text k

theorem ofWord?_eq_none_iff {w : String} :
    Keyword.ofWord? w = none ↔ ∀ k : Keyword, w ≠ k.text := by
  rw [Option.eq_none_iff_forall_ne_some]
  exact forall_congr' fun k => not_congr ofWord?_eq_some_iff

namespace Token

variable {t : Token}

theorem word?_eq_some_iff {w : String} : t.word? = some w ↔ t.IsWord w := by
  unfold word? IsWord
  split
  · rename_i h
    rw [h, Option.some.injEq, Lexeme.word.injEq]
  · rename_i h
    constructor
    · intro hnone
      cases hnone
    · intro hword
      exact absurd hword (h w)

theorem keyword?_eq_some_iff {k : Keyword} : t.keyword? = some k ↔ t.IsWord k.text := by
  unfold keyword?
  simp only [Option.bind_eq_some_iff, word?_eq_some_iff, ofWord?_eq_some_iff]
  constructor
  · rintro ⟨w, h, rfl⟩
    exact h
  · intro h
    exact ⟨_, h, rfl⟩

theorem count?_eq_some_iff {n : Nat} : t.count? = some n ↔ t.IsCount n := by
  unfold count? IsCount
  simp only [Option.bind_eq_some_iff, word?_eq_some_iff]

theorem element?_eq_some_iff {symbol : String} :
    t.element? = some symbol ↔ t.IsElement symbol := by
  unfold element? IsElement
  simp only [Option.bind_eq_some_iff, word?_eq_some_iff]
  refine exists_congr fun w => and_congr_right fun _ => ?_
  unfold elementOfWord?
  cases hk : Keyword.ofWord? w with
  | some k =>
    have := ofWord?_eq_some_iff.1 hk
    simp [this]
  | none =>
    rw [if_neg (by simp), and_iff_right (ofWord?_eq_none_iff.1 hk)]
    cases Element.ofToken? w.toList with
    | some e => simp [eq_comm (b := symbol)]
    | none => simp [eq_comm (b := symbol)]

theorem IsWord.unique {v w : String} (h : t.IsWord v) (h' : t.IsWord w) : v = w := by
  unfold IsWord at h h'
  rw [h] at h'
  exact Lexeme.word.inj h'

/-- No keyword reads as a count. -/
theorem count?_of_isWord {k : Keyword} (h : t.IsWord k.text) : t.count? = none := by
  have hnone : readCount k.text.toList = none := by
    cases k with
    | coordinate axis => cases axis <;> decide
    | _ => decide
  unfold count?
  rw [word?_eq_some_iff.2 h]
  exact hnone

/-- No keyword names an element. -/
theorem element?_of_isWord {k : Keyword} (h : t.IsWord k.text) : t.element? = none := by
  unfold element? elementOfWord?
  rw [word?_eq_some_iff.2 h, Option.bind_some, Keyword.ofWord?_text]
  rfl

end Token

/-! ## Lists of counts and elements -/

/-- What comes next is a keyword, or no word at all. -/
def Stops (ts : List Token) : Prop :=
  ∀ t ∈ ts.head?, ∀ w, t.IsWord w → ∃ k : Keyword, w = k.text

theorem stops_nil : Stops [] := by
  intro t ht
  cases ht

theorem stops_of_isWord {t : Token} {k : Keyword} (h : t.IsWord k.text) (ts : List Token) :
    Stops (t :: ts) := by
  intro u hu w hw
  cases hu
  exact ⟨k, hw.unique h⟩

theorem stops_of_closing {t : Token} (h : t.lexeme = .closing) (ts : List Token) :
    Stops (t :: ts) := by
  intro u hu w hw
  cases hu
  cases h.symm.trans hw

/-- A list goes on with words that are no keywords. -/
theorem Stops.eq_none {β : Type} {value? : Token → Option β} {ts : List Token} (h : Stops ts)
    (hword : ∀ t, t.word? = none → value? t = none)
    (hkeyword : ∀ t (k : Keyword), t.IsWord k.text → value? t = none) :
    ∀ t ∈ ts.head?, value? t = none := by
  intro t ht
  cases hw : t.word? with
  | none => exact hword t hw
  | some w =>
    obtain ⟨k, rfl⟩ := h t ht w (Token.word?_eq_some_iff.1 hw)
    exact hkeyword t k (Token.word?_eq_some_iff.1 hw)

section

variable {β : Type} {value? : Token → Option β}

/-- A list is read up to a token without a value. -/
theorem leading_append : ∀ {ts : List Token} {bs : List β} {rest : List Token},
    List.Forall₂ (fun t b => value? t = some b) ts bs → (∀ t ∈ rest.head?, value? t = none) →
      leading value? (ts ++ rest) = bs
  | _, _, [], .nil, _ => rfl
  | _, _, t :: rest, .nil, hrest => by
    rw [List.nil_append, leading, hrest t rfl]
  | t :: ts, b :: bs, rest, .cons hb hbs, hrest => by
    rw [List.cons_append, leading, hb]
    dsimp only
    rw [leading_append hbs hrest]

/-- What is read are values of the tokens in front. -/
theorem forall₂_leading : ∀ ts : List Token,
    List.Forall₂ (fun t b => value? t = some b) (ts.take (leading value? ts).length)
      (leading value? ts)
  | [] => .nil
  | t :: ts => by
    rw [leading]
    cases h : value? t with
    | none => exact .nil
    | some b => exact .cons h (forall₂_leading ts)

end

variable {ts rest : List Token} {keyword : Keyword} {position stop : Nat}

theorem readCounts_append {ns : List Nat} (h : List.Forall₂ Token.IsCount ts ns) (hne : ns ≠ [])
    (hstop : Stops rest) : readCounts keyword position (ts ++ rest) = .ok ns := by
  have hleading : leading Token.count? (ts ++ rest) = ns := by
    refine leading_append (h.imp fun _ _ => Token.count?_eq_some_iff.2) (hstop.eq_none ?_ ?_)
    · intro t ht
      rw [Token.count?, ht, Option.bind_none]
    · exact fun t k => Token.count?_of_isWord
  unfold readCounts
  rw [hleading]
  dsimp only
  rw [if_neg (by simpa using hne)]

theorem readElements_append {symbols : List String}
    (h : List.Forall₂ Token.IsElement ts symbols) (hne : symbols ≠ []) (hstop : Stops rest) :
    readElements position (ts ++ rest) = .ok symbols := by
  have hleading : leading Token.element? (ts ++ rest) = symbols := by
    refine leading_append (h.imp fun _ _ => Token.element?_eq_some_iff.2) (hstop.eq_none ?_ ?_)
    · intro t ht
      rw [Token.element?, ht, Option.bind_none]
    · exact fun t k => Token.element?_of_isWord
  have hempty : symbols.isEmpty = false := by simpa using hne
  unfold readElements
  rw [hleading]
  dsimp only
  rw [← h.length_eq, List.drop_left, hempty]
  split
  · rename_i w at_ after
    obtain ⟨k, rfl⟩ := hstop _ rfl w rfl
    rw [Keyword.ofWord?_text]
    rfl
  · rfl

theorem forall₂_of_readCounts {ns : List Nat} (h : readCounts keyword position ts = .ok ns) :
    List.Forall₂ Token.IsCount (ts.take ns.length) ns ∧ ns ≠ [] := by
  have hleading : leading Token.count? ts = ns ∧ ns ≠ [] := by
    unfold readCounts at h
    dsimp only at h
    split at h
    · split at h
      · split at h <;> cases h
      · cases h
    · rename_i hne
      cases h
      exact ⟨rfl, by simpa using hne⟩
  obtain ⟨rfl, hne⟩ := hleading
  exact ⟨(forall₂_leading ts).imp fun t _ => (Token.count?_eq_some_iff (t := t)).1, hne⟩

theorem forall₂_of_readElements {symbols : List String}
    (h : readElements position ts = .ok symbols) :
    List.Forall₂ Token.IsElement (ts.take symbols.length) symbols ∧ symbols ≠ [] := by
  have hleading : leading Token.element? ts = symbols ∧ symbols ≠ [] := by
    unfold readElements at h
    dsimp only at h
    split at h
    · split at h
      · cases h
      · split at h
        · cases h
        · rename_i hne
          cases h
          exact ⟨rfl, by simpa using hne⟩
    · split at h
      · cases h
      · rename_i hne
        cases h
        exact ⟨rfl, by simpa using hne⟩
  obtain ⟨rfl, hne⟩ := hleading
  exact ⟨(forall₂_leading ts).imp fun t _ => (Token.element?_eq_some_iff (t := t)).1, hne⟩

/-! ## Numbers and radii -/

theorem readNumberToken_eq_ok_iff {expected : Expected} {a : Double} :
    readNumberToken stop expected ts = .ok a ↔ ∃ t rest, ts = t :: rest ∧ t.IsNumber a := by
  unfold readNumberToken
  split
  · rename_i w at_ rest
    constructor
    · intro h
      split at h
      · rename_i b hb
        cases h
        exact ⟨_, _, rfl, w, rfl, hb⟩
      · cases h
    · rintro ⟨t, rest, hts, v, hv, hread⟩
      cases hts
      cases hv
      rw [hread]
  · rename_i hno
    constructor
    · intro h
      cases h
    · rintro ⟨⟨_, at_⟩, rest, rfl, w, rfl, -⟩
      exact absurd rfl (hno w at_ rest)

theorem readComparison_eq_ok_iff {c : Comparison} {a : Double} :
    readComparison stop ts = .ok (c, a) ↔
      ∃ u v rest, ts = u :: v :: rest ∧ u.lexeme = .comparison c ∧ v.IsNumber a := by
  unfold readComparison
  split
  · rename_i c' at_ rest
    simp only [map_eq_ok_iff, readNumberToken_eq_ok_iff]
    constructor
    · rintro ⟨_, ⟨v, rest, rfl, hv⟩, h⟩
      cases h
      exact ⟨_, v, rest, rfl, rfl, hv⟩
    · rintro ⟨u, v, rest, hts, hu, hv⟩
      cases hts
      cases hu
      exact ⟨a, ⟨v, rest, rfl, hv⟩, rfl⟩
  · rename_i hno
    constructor
    · intro h
      cases h
    · rintro ⟨⟨_, at_⟩, v, rest, rfl, rfl, -⟩
      exact absurd rfl (hno c at_ (v :: rest))

theorem startsWith_iff {k : Keyword} :
    startsWith k ts = true ↔ ∃ t rest, ts = t :: rest ∧ t.IsWord k.text := by
  unfold startsWith
  cases ts with
  | nil => simp
  | cons t rest => simp [Token.keyword?_eq_some_iff]

theorem readRadius_eq_ok_iff {radius : Double} :
    readRadius stop ts = .ok radius ↔ ∃ u v rest, ts = u :: v :: rest ∧ u.IsNumber radius ∧
      radius.isFinite = true ∧ 0 ≤ radius ∧ v.IsWord "of" := by
  unfold readRadius
  constructor
  · intro h
    split at h
    · cases h
    · rename_i r hr
      split at h
      · rename_i hradius
        split at h
        · rename_i hof
          cases h
          obtain ⟨u, after, rfl, hu⟩ := readNumberToken_eq_ok_iff.1 hr
          obtain ⟨v, rest, hv, hword⟩ := startsWith_iff.1 hof
          cases hv
          rw [Bool.and_eq_true, decide_eq_true_iff] at hradius
          exact ⟨u, v, rest, rfl, hu, hradius.1, hradius.2, hword⟩
        · cases h
      · cases h
  · rintro ⟨u, v, rest, rfl, hu, hfinite, hle, hof⟩
    rw [readNumberToken_eq_ok_iff.2 ⟨u, v :: rest, rfl, hu⟩]
    dsimp only
    rw [if_pos (by simp [hfinite, hle]), List.tail_cons,
      if_pos ((startsWith_iff (k := .of)).2 ⟨v, rest, rfl, hof⟩)]

/-! ## Terms without other predicates -/

theorem leadingCall?_eq_some_iff {name arguments : String} :
    leadingCall? ts = some (name, arguments, position) ↔
      ∃ rest, ts = ⟨.call name arguments, position⟩ :: rest := by
  unfold leadingCall?
  split
  · simp [and_assoc]
  · rename_i hno
    constructor
    · intro h
      cases h
    · rintro ⟨rest, rfl⟩
      exact absurd rfl (hno _ _ _ _)

/-- **What is read as a term that holds no other predicate is one.** -/
theorem derives_of_readSimple {t : Token} {p : Predicate Double} {used : Nat}
    (ht : t.IsWord keyword.text) (h : readSimple stop keyword position ts = some (.ok (p, used))) :
    Derives .term (t :: ts.take used) p := by
  cases keyword with
  | all =>
    cases h
    exact .all ht
  | nothing =>
    cases h
    exact .nothing ht
  | id =>
    obtain ⟨ns, hns, heq⟩ := map_eq_ok_iff.1 (Option.some.inj h)
    cases heq
    obtain ⟨hcounts, hne⟩ := forall₂_of_readCounts hns
    exact .id ht hcounts hne
  | molecule =>
    obtain ⟨ns, hns, heq⟩ := map_eq_ok_iff.1 (Option.some.inj h)
    cases heq
    obtain ⟨hcounts, hne⟩ := forall₂_of_readCounts hns
    exact .molecule ht hcounts hne
  | type =>
    obtain ⟨ns, hns, heq⟩ := map_eq_ok_iff.1 (Option.some.inj h)
    cases heq
    obtain ⟨hcounts, hne⟩ := forall₂_of_readCounts hns
    exact .type ht hcounts hne
  | element =>
    obtain ⟨symbols, hsymbols, heq⟩ := map_eq_ok_iff.1 (Option.some.inj h)
    cases heq
    obtain ⟨helements, hne⟩ := forall₂_of_readElements hsymbols
    exact .element ht helements hne
  | coordinate axis =>
    obtain ⟨⟨c, a⟩, hread, heq⟩ := map_eq_ok_iff.1 (Option.some.inj h)
    cases heq
    obtain ⟨u, v, rest, rfl, hu, hv⟩ := readComparison_eq_ok_iff.1 hread
    exact .compare ht hu hv
  | within =>
    obtain ⟨⟨name, arguments, at_⟩, hcall, heq⟩ := Option.map_eq_some_iff.1 h
    obtain ⟨rest, rfl⟩ := leadingCall?_eq_some_iff.1 hcall
    dsimp only at heq
    split at heq
    · rename_i region hregion
      cases heq
      exact .inside ht rfl hregion
    · cases heq
  | _ => cases h

/-- Behind `within` there is a radius unless there is a call. -/
theorem readSimple_within_eq_none_iff :
    readSimple stop .within position ts = none ↔ leadingCall? ts = none := by
  unfold readSimple
  rw [Option.map_eq_none_iff]

theorem leadingCall?_of_isWord {t : Token} {w : String} (h : t.IsWord w) :
    leadingCall? (t :: ts) = none := by
  obtain ⟨_, at_⟩ := t
  cases h
  rfl

end Honeycomb.Selection
