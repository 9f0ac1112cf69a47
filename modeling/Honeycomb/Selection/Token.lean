import Honeycomb.Geometry.Axis
import Honeycomb.Number.Comparison
import Honeycomb.Selection.Fault
import Honeycomb.Text.Blank

/-!
# The words of the selection language

* `Keyword` — the words with a meaning of their own.
* `Lexeme` — parentheses, comparisons, words, and calls `Name(arguments)`, whose arguments are
  any text in which parentheses balance.
* `tokens` — the lexemes of a text with the characters they start at.
-/

set_option autoImplicit false

namespace Honeycomb.Selection

/-- A word with a meaning of its own. -/
inductive Keyword where
  | and
  | or
  | not
  | all
  | nothing
  | id
  | molecule
  | type
  | element
  | coordinate (axis : Axis)
  | within
  | exwithin
  | of
deriving Repr, DecidableEq

namespace Keyword

/-- How a keyword is written. -/
def text : Keyword → String
  | and => "and"
  | or => "or"
  | not => "not"
  | all => "all"
  | nothing => "none"
  | id => "id"
  | molecule => "molid"
  | type => "type"
  | element => "element"
  | coordinate axis => axis.name
  | within => "within"
  | exwithin => "exwithin"
  | of => "of"

/-- The keyword that a word is. -/
def ofWord? (word : String) : Option Keyword :=
  [and, or, not, all, nothing, id, molecule, type, element, coordinate .x, coordinate .y,
    coordinate .z, within, exwithin, of].find? (·.text == word)

theorem ofWord?_text (k : Keyword) : ofWord? k.text = some k := by
  cases k with
  | coordinate axis => cases axis <;> decide
  | _ => decide

theorem text_of_ofWord? {word : String} {k : Keyword} (h : ofWord? word = some k) :
    k.text = word := by
  simpa using List.find?_some h

end Keyword

/-- A unit of the selection language. -/
inductive Lexeme where
  | opening
  | closing
  | comparison (c : Comparison)
  | word (text : String)
  | call (name arguments : String)
deriving Repr, DecidableEq

/-- How a lexeme is written. -/
def Lexeme.text : Lexeme → String
  | opening => "("
  | closing => ")"
  | comparison c => c.symbol
  | word w => w
  | call name arguments => name ++ "(" ++ arguments ++ ")"

/-- A lexeme and the character, counted from zero, that it starts at. -/
structure Token where
  lexeme : Lexeme
  position : Nat
deriving Repr, DecidableEq

/-- The first character of a comparison. -/
def isComparisonChar (c : Char) : Bool :=
  c == '<' || c == '>' || c == '=' || c == '!'

/-- A character that can stand in a word. -/
def isWordChar (c : Char) : Bool :=
  !(isBlank c || c == '(' || c == ')' || isComparisonChar c)

/-- The text up to the parenthesis that closes the current one, with `depth` further ones open
in it; none when the text ends before. -/
def textToClosing (depth : Nat) : List Char → Option (List Char)
  | [] => none
  | c :: rest =>
    if c = '(' then (textToClosing (depth + 1) rest).map (c :: ·)
    else if c = ')' then
      match depth with
      | 0 => some []
      | d + 1 => (textToClosing d rest).map (c :: ·)
    else (textToClosing depth rest).map (c :: ·)

namespace Lexeme

/-- The lexeme that starts with `c` and goes on in `rest`, and how many characters of `rest`
belong to it. A fault is placed relative to `c`. -/
def scan (c : Char) (rest : List Char) : Except ParseError (Lexeme × Nat) :=
  if c = '(' then .ok (opening, 0)
  else if c = ')' then .ok (closing, 0)
  else if isComparisonChar c then
    let doubled := rest.head? == some '='
    match Comparison.ofChar? c doubled with
    | some cmp => .ok (comparison cmp, if doubled then 1 else 0)
    | none => .error ⟨0, .unexpected .comparison c.toString⟩
  else
    let more := rest.takeWhile isWordChar
    let text := String.ofList (c :: more)
    match rest.drop more.length with
    | '(' :: inner =>
      if (Keyword.ofWord? text).isSome then .ok (word text, more.length)
      else
        match textToClosing 0 inner with
        | some arguments =>
          .ok (call text (String.ofList arguments), more.length + arguments.length + 2)
        | none => .error ⟨more.length + 1, .unbalanced⟩
    | _ => .ok (word text, more.length)

end Lexeme

/-- The lexemes of a text that starts at `position`. -/
def tokensFrom (position : Nat) : List Char → Except ParseError (List Token)
  | [] => .ok []
  | c :: rest =>
    if isBlank c then tokensFrom (position + 1) rest
    else
      match Lexeme.scan c rest with
      | .error e => .error { e with position := position + e.position }
      | .ok (lexeme, more) =>
        match tokensFrom (position + 1 + more) (rest.drop more) with
        | .error e => .error e
        | .ok ts => .ok (⟨lexeme, position⟩ :: ts)
termination_by cs => cs.length
decreasing_by
  all_goals simp only [List.length_cons, List.length_drop]; omega

/-- The lexemes of a text. -/
def tokens (text : String) : Except ParseError (List Token) :=
  tokensFrom 0 text.toList

end Honeycomb.Selection
