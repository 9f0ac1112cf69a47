import Honeycomb.Element
import Honeycomb.Selection.Predicate
import Honeycomb.Selection.RegionArguments

/-!
# Reading selections

The grammar, from the loosest to the tightest binding:

* a disjunction is conjunctions joined by `or`, a conjunction is negations joined by `and`;
  both group to the left;
* a negation is `not` and a negation, or a term;
* a term is a disjunction in parentheses, `all`, `none`, a list of ids, molecules, types or
  elements, a comparison of a coordinate, `within` and a region, or `within` or `exwithin`
  with a radius, `of` and a negation.

`Predicate.ofTokens` reads a whole list of tokens, `readPredicate` a text. Each reader returns
the tokens that it leaves, which are fewer than it was given.
-/

set_option autoImplicit false

namespace Honeycomb.Selection

/-! ## Tokens at the front -/

/-- Something else is expected where the tokens go on, or at `stop`, where the text ends. -/
def lacking (stop : Nat) (expected : Expected) : List Token → ParseError
  | [] => ⟨stop, .unexpectedEnd expected⟩
  | t :: _ => ⟨t.position, .unexpected expected t.lexeme.text⟩

/-- The word that a token is. -/
def Token.word? (t : Token) : Option String :=
  match t.lexeme with
  | .word w => some w
  | _ => none

/-- The keyword that a token is. -/
def Token.keyword? (t : Token) : Option Keyword :=
  t.word?.bind Keyword.ofWord?

/-- The count that a token is. -/
def Token.count? (t : Token) : Option Nat :=
  t.word?.bind fun w => readCount w.toList

/-- A word that has the form of an element symbol: a capital and at most two small letters. -/
def isSymbolShaped (word : String) : Bool :=
  match word.toList with
  | c :: rest => c.isUpper && rest.length ≤ 2 && rest.all Char.isLower
  | [] => false

/-- The element symbol that a word names. A word that has the form of a symbol names itself,
also when no such element is known; a keyword names none. -/
def elementOfWord? (word : String) : Option String :=
  if (Keyword.ofWord? word).isSome then none
  else
    match Element.ofToken? word.toList with
    | some e => some e.symbol
    | none => if isSymbolShaped word then some word else none

/-- The element symbol that a token names. -/
def Token.element? (t : Token) : Option String :=
  t.word?.bind elementOfWord?

/-- The first token is a given keyword. -/
def startsWith (k : Keyword) (ts : List Token) : Bool :=
  ts.head?.bind Token.keyword? == some k

/-- The values of the tokens in front that have one. -/
def leading {β : Type} (value? : Token → Option β) : List Token → List β
  | [] => []
  | t :: ts =>
    match value? t with
    | some b => b :: leading value? ts
    | none => []

/-! ## Parts of terms -/

/-- A list of counts, as long as possible, behind a keyword at `position`. -/
def readCounts (keyword : Keyword) (position : Nat) (ts : List Token) :
    Except ParseError (List Nat) :=
  let counts := leading Token.count? ts
  if counts.isEmpty then
    match ts with
    | ⟨.word w, at_⟩ :: _ =>
      if (Keyword.ofWord? w).isSome then .error ⟨position, .emptyList keyword.text⟩
      else .error ⟨at_, .invalidNumber w⟩
    | _ => .error ⟨position, .emptyList keyword.text⟩
  else .ok counts

/-- A list of elements up to the next keyword. -/
def readElements (position : Nat) (ts : List Token) : Except ParseError (List String) :=
  let symbols := leading Token.element? ts
  match ts.drop symbols.length with
  | ⟨.word w, at_⟩ :: _ =>
    if (Keyword.ofWord? w).isNone then .error ⟨at_, .unexpected .element w⟩
    else if symbols.isEmpty then .error ⟨position, .emptyList Keyword.element.text⟩
    else .ok symbols
  | _ =>
    if symbols.isEmpty then .error ⟨position, .emptyList Keyword.element.text⟩ else .ok symbols

/-- The number that the first token is. -/
def readNumberToken (stop : Nat) (expected : Expected) (ts : List Token) :
    Except ParseError Double :=
  match ts with
  | ⟨.word w, at_⟩ :: _ =>
    match readDouble w.toList with
    | some a => .ok a
    | none => .error ⟨at_, .invalidNumber w⟩
  | _ => .error (lacking stop expected ts)

/-- A comparison and a number. -/
def readComparison (stop : Nat) (ts : List Token) : Except ParseError (Comparison × Double) :=
  match ts with
  | ⟨.comparison c, _⟩ :: rest => (readNumberToken stop .number rest).map (c, ·)
  | _ => .error (lacking stop .comparison ts)

/-- A radius, which is finite and not negative, and `of`. -/
def readRadius (stop : Nat) (ts : List Token) : Except ParseError Double :=
  match readNumberToken stop .radius ts with
  | .error e => .error e
  | .ok r =>
    if r.isFinite && 0 ≤ r then
      if startsWith .of ts.tail then .ok r else .error (lacking stop .ofWord ts.tail)
    else
      .error ⟨(ts.head?.map (·.position)).getD stop, .invalidNumber (plainText r)⟩

/-- The call in front. -/
def leadingCall? : List Token → Option (String × String × Nat)
  | ⟨.call name arguments, position⟩ :: _ => some (name, arguments, position)
  | _ => none

/-- A term that holds no other predicate, behind its keyword at `position`, and the number of
tokens it takes; none for a keyword that starts no such term. -/
def readSimple (stop : Nat) (k : Keyword) (position : Nat) (ts : List Token) :
    Option (Except ParseError (Predicate Double × Nat)) :=
  match k with
  | .all => some (.ok (.all, 0))
  | .nothing => some (.ok (.nothing, 0))
  | .id => some ((readCounts k position ts).map fun ns => (.id ns, ns.length))
  | .molecule => some ((readCounts k position ts).map fun ns => (.molecule ns, ns.length))
  | .type => some ((readCounts k position ts).map fun ns => (.type ns, ns.length))
  | .element => some ((readElements position ts).map fun es => (.element es, es.length))
  | .coordinate axis =>
    some ((readComparison stop ts).map fun (c, a) => (.compare axis c a, 2))
  | .within =>
    (leadingCall? ts).map fun (name, arguments, at_) =>
      match readRegion name arguments with
      | .ok region => .ok (.inside region, 1)
      | .error fault => .error ⟨at_, fault⟩
  | _ => none

/-! ## The grammar -/

/-- A predicate that was read from the front of `ts`, and the tokens behind it. -/
structure Parsed (ts : List Token) where
  predicate : Predicate Double
  rest : List Token
  shorter : rest.length < ts.length

/-- What a reader makes of `ts`. -/
abbrev Outcome (ts : List Token) := Except ParseError (Parsed ts)

mutual

/-- Conjunctions joined by `or`. -/
def disjunction (stop : Nat) (ts : List Token) : Outcome ts :=
  match conjunction stop ts with
  | .error e => .error e
  | .ok first =>
    match disjunctionFrom stop first.predicate first.rest with
    | .error e => .error e
    | .ok (p, ⟨rest, h⟩) => .ok ⟨p, rest, Nat.lt_of_le_of_lt h first.shorter⟩
termination_by (ts.length, 3)
decreasing_by
  · exact Prod.Lex.right _ (by omega)
  · exact Prod.Lex.left _ _ first.shorter

/-- What follows the left side of a disjunction. -/
def disjunctionFrom (stop : Nat) (left : Predicate Double) (ts : List Token) :
    Except ParseError (Predicate Double × { rest : List Token // rest.length ≤ ts.length }) :=
  match ts with
  | [] => .ok (left, ⟨[], Nat.le_refl _⟩)
  | t :: after =>
    if t.keyword? = some .or then
      match conjunction stop after with
      | .error e => .error e
      | .ok right =>
        match disjunctionFrom stop (.or left right.predicate) right.rest with
        | .error e => .error e
        | .ok (p, ⟨rest, h⟩) =>
          .ok (p, ⟨rest, Nat.le_trans h (Nat.le_succ_of_le (Nat.le_of_lt right.shorter))⟩)
    else .ok (left, ⟨t :: after, Nat.le_refl _⟩)
termination_by (ts.length, 4)
decreasing_by
  · exact Prod.Lex.left _ _ (Nat.lt_succ_self _)
  · exact Prod.Lex.left _ _ (Nat.lt_succ_of_lt right.shorter)

/-- Negations joined by `and`. -/
def conjunction (stop : Nat) (ts : List Token) : Outcome ts :=
  match negation stop ts with
  | .error e => .error e
  | .ok first =>
    match conjunctionFrom stop first.predicate first.rest with
    | .error e => .error e
    | .ok (p, ⟨rest, h⟩) => .ok ⟨p, rest, Nat.lt_of_le_of_lt h first.shorter⟩
termination_by (ts.length, 2)
decreasing_by
  · exact Prod.Lex.right _ (by omega)
  · exact Prod.Lex.left _ _ first.shorter

/-- What follows the left side of a conjunction. -/
def conjunctionFrom (stop : Nat) (left : Predicate Double) (ts : List Token) :
    Except ParseError (Predicate Double × { rest : List Token // rest.length ≤ ts.length }) :=
  match ts with
  | [] => .ok (left, ⟨[], Nat.le_refl _⟩)
  | t :: after =>
    if t.keyword? = some .and then
      match negation stop after with
      | .error e => .error e
      | .ok right =>
        match conjunctionFrom stop (.and left right.predicate) right.rest with
        | .error e => .error e
        | .ok (p, ⟨rest, h⟩) =>
          .ok (p, ⟨rest, Nat.le_trans h (Nat.le_succ_of_le (Nat.le_of_lt right.shorter))⟩)
    else .ok (left, ⟨t :: after, Nat.le_refl _⟩)
termination_by (ts.length, 4)
decreasing_by
  · exact Prod.Lex.left _ _ (Nat.lt_succ_self _)
  · exact Prod.Lex.left _ _ (Nat.lt_succ_of_lt right.shorter)

/-- `not` and a negation, or a term. -/
def negation (stop : Nat) (ts : List Token) : Outcome ts :=
  match ts with
  | [] => .error ⟨stop, .unexpectedEnd .term⟩
  | t :: after =>
    if t.keyword? = some .not then
      match negation stop after with
      | .error e => .error e
      | .ok inner => .ok ⟨.not inner.predicate, inner.rest, Nat.lt_succ_of_lt inner.shorter⟩
    else term stop t after
termination_by (ts.length, 1)
decreasing_by
  · exact Prod.Lex.left _ _ (Nat.lt_succ_self _)
  · exact Prod.Lex.right _ (by omega)

/-- A term, from its first token on. -/
def term (stop : Nat) (t : Token) (after : List Token) : Outcome (t :: after) :=
  match t.lexeme with
  | .opening =>
    match disjunction stop after with
    | .error e => .error e
    | .ok inner =>
      match inner with
      | ⟨p, ⟨.closing, _⟩ :: rest, h⟩ =>
        .ok ⟨p, rest, Nat.lt_succ_of_lt (Nat.lt_of_succ_lt h)⟩
      | _ => .error ⟨t.position, .unbalanced⟩
  | .closing => .error ⟨t.position, .unbalanced⟩
  | .call name _ => .error ⟨t.position, .unknownKeyword name⟩
  | .comparison c => .error ⟨t.position, .unexpected .term c.symbol⟩
  | .word w =>
    match Keyword.ofWord? w with
    | none => .error ⟨t.position, .unknownKeyword w⟩
    | some k =>
      match readSimple stop k t.position after with
      | some (.error e) => .error e
      | some (.ok (p, used)) =>
        .ok ⟨p, after.drop used, by simp only [List.length_drop, List.length_cons]; omega⟩
      | none =>
        if k = .within ∨ k = .exwithin then
          match readRadius stop after with
          | .error e => .error e
          | .ok radius =>
            match negation stop (after.drop 2) with
            | .error e => .error e
            | .ok inner =>
              .ok ⟨if k = .within then .within radius inner.predicate
                  else .exwithin radius inner.predicate, inner.rest, by
                have := inner.shorter
                simp only [List.length_drop] at this
                simp only [List.length_cons]
                omega⟩
        else .error ⟨t.position, .unknownKeyword w⟩
termination_by (after.length + 1, 0)
decreasing_by
  · exact Prod.Lex.left _ _ (Nat.lt_succ_self _)
  · exact Prod.Lex.left _ _ (by simp only [List.length_drop]; omega)

end

/-- Reads all tokens of a text of `stop` characters. -/
def Predicate.ofTokens (stop : Nat) (ts : List Token) : Except ParseError (Predicate Double) :=
  if ts.isEmpty then .error ⟨0, .empty⟩
  else
    match disjunction stop ts with
    | .error e => .error e
    | .ok whole =>
      match whole.rest with
      | [] => .ok whole.predicate
      | t :: rest =>
        if t.lexeme = .closing then .error ⟨t.position, .unbalanced⟩
        else .error (lacking stop .connective (t :: rest))

/-- Reads a selection. -/
def readPredicate (text : String) : Except ParseError (Predicate Double) :=
  match tokens text with
  | .error e => .error e
  | .ok ts => Predicate.ofTokens text.length ts

end Honeycomb.Selection
