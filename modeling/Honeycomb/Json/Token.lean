import Honeycomb.Json.Numeral

/-!
# The units of JSON text

* `TextUnit` — a character of a quoted text, or a unit of UTF-16 that was written by its code;
  `decodeText` puts them together.
* `Token` — the marks, the constants, the numbers and the quoted texts.
* `Scan` — what is being read between two characters; `Scan.step` reads the next one.
* `tokens` — the tokens of a text, or none when some part of it is not a token.
-/

set_option autoImplicit false

namespace Honeycomb.Json

/-! ## Quoted text -/

/-- A part of a quoted text. -/
inductive TextUnit where
  | plain (c : Char)
  | code (n : Nat)
deriving Repr, DecidableEq

/-- The first half of a pair that stands for one character. -/
def isLeadingHalf (n : Nat) : Bool :=
  0xD800 ≤ n && n < 0xDC00

/-- The second half of such a pair. -/
def isTrailingHalf (n : Nat) : Bool :=
  0xDC00 ≤ n && n < 0xE000

/-- The characters of a quoted text. A half without its other half stands for none. -/
def decodeText : List TextUnit → Option (List Char)
  | [] => some []
  | .plain c :: rest => (decodeText rest).map (c :: ·)
  | .code n :: .code k :: rest =>
    if isTrailingHalf n then none
    else if isLeadingHalf n then
      if isTrailingHalf k then
        let c := Char.ofNat (0x10000 + (n - 0xD800) * 0x400 + (k - 0xDC00))
        (decodeText rest).map (c :: ·)
      else none
    else (decodeText (.code k :: rest)).map (Char.ofNat n :: ·)
  | .code n :: rest =>
    if isTrailingHalf n || isLeadingHalf n then none
    else (decodeText rest).map (Char.ofNat n :: ·)

/-- Text without codes is read as it stands. -/
theorem decodeText_plain (cs : List Char) : decodeText (cs.map .plain) = some cs := by
  induction cs with
  | nil => rfl
  | cons c cs ih => simp [decodeText, ih]

/-- The character that a letter behind a backslash stands for. -/
def escaped? (c : Char) : Option Char :=
  match c with
  | '"' | '\\' | '/' => some c
  | 'b' => some '\x08'
  | 'f' => some '\x0c'
  | 'n' => some '\n'
  | 'r' => some '\r'
  | 't' => some '\t'
  | _ => none

/-- The value of a digit to the base sixteen. -/
def hexValue? (c : Char) : Option Nat :=
  if c.isDigit then some (c.toNat - '0'.toNat)
  else if 'a' ≤ c && c ≤ 'f' then some (c.toNat - 'a'.toNat + 10)
  else if 'A' ≤ c && c ≤ 'F' then some (c.toNat - 'A'.toNat + 10)
  else none

/-! ## Tokens -/

/-- A unit of JSON text. -/
inductive Token where
  | listStart
  | listEnd
  | objectStart
  | objectEnd
  | comma
  | colon
  | null
  | bool (b : Bool)
  | number (n : Numeral)
  | text (units : List TextUnit)
deriving Repr, DecidableEq

/-- The mark that a character is. -/
def Token.ofMark? (c : Char) : Option Token :=
  if c = '[' then some listStart
  else if c = ']' then some listEnd
  else if c = '\x7b' then some objectStart
  else if c = '\x7d' then some objectEnd
  else if c = ',' then some comma
  else if c = ':' then some colon
  else none

/-- The constant or the number that a word is. -/
def Token.ofWord? (word : List Char) : Option Token :=
  if word = "null".toList then some null
  else if word = "true".toList then some (bool true)
  else if word = "false".toList then some (bool false)
  else (Numeral.read word).map number

/-- The characters that separate tokens. -/
def isSpace (c : Char) : Bool :=
  c == ' ' || c == '\n' || c == '\t' || c == '\r'

/-- What is being read. What has been read of it so far stands in reverse. -/
inductive Scan where
  | between
  | word (letters : List Char)
  | quoted (units : List TextUnit)
  | escape (units : List TextUnit)
  | code (units : List TextUnit) (value digitsLeft : Nat)
deriving Repr, DecidableEq

namespace Scan

/-- Reads a character that belongs to no token yet. -/
def start (c : Char) : List Token × Scan :=
  if isSpace c then ([], between)
  else if c = '"' then ([], quoted [])
  else
    match Token.ofMark? c with
    | some t => ([t], between)
    | none => ([], word [c])

/-- A character that goes on with a word. -/
def continuesWord (c : Char) : Bool :=
  !(isSpace c || c == '"' || (Token.ofMark? c).isSome)

/-- Reads a character: the tokens that end with it or before it, and what is being read then. -/
def step : Scan → Char → Option (List Token × Scan)
  | between, c => some (start c)
  | word letters, c =>
    if continuesWord c then some ([], word (c :: letters))
    else do
      let t ← Token.ofWord? letters.reverse
      let (ts, next) := start c
      return (t :: ts, next)
  | quoted units, c =>
    if c = '"' then some ([.text units.reverse], between)
    else if c = '\\' then some ([], escape units)
    else if c.toNat < 0x20 then none
    else some ([], quoted (.plain c :: units))
  | escape units, c =>
    if c = 'u' then some ([], code units 0 4)
    else (escaped? c).map fun d => ([], quoted (.plain d :: units))
  | code units value digitsLeft, c => do
    let digit ← hexValue? c
    let value := 16 * value + digit
    if digitsLeft ≤ 1 then return ([], quoted (.code value :: units))
    else return ([], code units value (digitsLeft - 1))

/-- The tokens that are still open at the end of a text. -/
def finish : Scan → Option (List Token)
  | between => some []
  | word letters => (Token.ofWord? letters.reverse).map ([·])
  | quoted _ | escape _ | code _ _ _ => none

end Scan

/-- The tokens of a text that goes on from what is being read. -/
def tokensFrom (scan : Scan) : List Char → Option (List Token)
  | [] => scan.finish
  | c :: cs => do
    let (ts, next) ← scan.step c
    return ts ++ (← tokensFrom next cs)

/-- The tokens of a text. -/
def tokens (text : String) : Option (List Token) :=
  tokensFrom .between text.toList

end Honeycomb.Json
