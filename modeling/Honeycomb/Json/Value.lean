import Honeycomb.Json.Token

/-!
# JSON values

* `Value` — a value as it is written: keys and texts undecoded, members in their order.
* `Reading` — where reading stands between two tokens: the values that are still open, and what
  may come next; `Reading.step` reads the next token.
* `read` — the value that a text is.
* `quoted` — a text as JSON writes it.
-/

set_option autoImplicit false

namespace Honeycomb.Json

/-- A JSON value. -/
inductive Value where
  | null
  | bool (b : Bool)
  | number (n : Numeral)
  | text (units : List TextUnit)
  | list (items : List Value)
  | object (members : List (List TextUnit × Value))

/-- The members of an object. -/
abbrev Members := List (List TextUnit × Value)

/-- A value that is not complete: a list with the items before the current one, or an object
with the members before the current one and its key. -/
inductive Frame where
  | list (items : List Value)
  | member (members : Members) (key : List TextUnit)

/-- What may come next: a value, a value or the end of an empty list, a key or the end of an
empty object, a further key, a colon behind a key, or whatever follows a complete value. -/
inductive Expectation where
  | value
  | firstItem
  | firstKey
  | key (members : Members)
  | colon (members : Members) (key : List TextUnit)
  | following (v : Value)

/-- The open values, the innermost first, and what may come next. -/
structure Reading where
  frames : List Frame
  next : Expectation

namespace Reading

/-- Reads a token where a value is expected. -/
def startValue (frames : List Frame) : Token → Option Reading
  | .listStart => some ⟨frames, .firstItem⟩
  | .objectStart => some ⟨frames, .firstKey⟩
  | .null => some ⟨frames, .following .null⟩
  | .bool b => some ⟨frames, .following (.bool b)⟩
  | .number n => some ⟨frames, .following (.number n)⟩
  | .text units => some ⟨frames, .following (.text units)⟩
  | _ => none

/-- Reads a token behind a complete value. -/
def follow (frames : List Frame) (v : Value) (t : Token) : Option Reading :=
  match frames, t with
  | .list items :: outer, .comma => some ⟨.list (items ++ [v]) :: outer, .value⟩
  | .list items :: outer, .listEnd => some ⟨outer, .following (.list (items ++ [v]))⟩
  | .member members key :: outer, .comma => some ⟨outer, .key (members ++ [(key, v)])⟩
  | .member members key :: outer, .objectEnd =>
    some ⟨outer, .following (.object (members ++ [(key, v)]))⟩
  | _, _ => none

/-- Reads a token. -/
def step (r : Reading) (t : Token) : Option Reading :=
  match r.next, t with
  | .firstItem, .listEnd => some ⟨r.frames, .following (.list [])⟩
  | .firstItem, _ => startValue (.list [] :: r.frames) t
  | .value, _ => startValue r.frames t
  | .firstKey, .objectEnd => some ⟨r.frames, .following (.object [])⟩
  | .firstKey, .text units => some ⟨r.frames, .colon [] units⟩
  | .key members, .text units => some ⟨r.frames, .colon members units⟩
  | .colon members key, .colon => some ⟨.member members key :: r.frames, .value⟩
  | .following v, _ => follow r.frames v t
  | _, _ => none

end Reading

/-- The value that a list of tokens is. -/
def Value.ofTokens (ts : List Token) : Option Value := do
  match ← ts.foldlM Reading.step ⟨[], .value⟩ with
  | ⟨[], .following v⟩ => return v
  | _ => none

/-- The value that a text is. -/
def read (text : String) : Option Value := do
  Value.ofTokens (← tokens text)

/-! ## Writing -/

/-- A character of a quoted text. -/
def quotedChar (c : Char) : List Char :=
  if c = '"' then ['\\', '"']
  else if c = '\\' then ['\\', '\\']
  else if c = '\x08' then ['\\', 'b']
  else if c = '\x0c' then ['\\', 'f']
  else if c = '\n' then ['\\', 'n']
  else if c = '\r' then ['\\', 'r']
  else if c = '\t' then ['\\', 't']
  else if c.toNat < 0x20 then
    "\\u00".toList ++ [Nat.digitChar (c.toNat / 16), Nat.digitChar (c.toNat % 16)]
  else [c]

/-- A text in quotes. -/
def quoted (s : String) : String :=
  "\"" ++ String.ofList (s.toList.flatMap quotedChar) ++ "\""

end Honeycomb.Json
