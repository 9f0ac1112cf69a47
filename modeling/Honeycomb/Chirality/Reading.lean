import Honeycomb.Chirality.Basic
import Honeycomb.Number.Reading
import Honeycomb.Text.Words

/-!
# Reading chiralities

* `ChiralType.read`, `Handedness.read` — names in any case, or their first letters.
* `Chirality.read` — two indices, separated by commas or blanks, that may stand in parentheses.
-/

set_option autoImplicit false

namespace Honeycomb

variable {α : Type}

/-- Reads the name of a type, in any case. -/
def ChiralType.read (s : String) : Except (Error α) ChiralType :=
  let lowered := s.toLower
  if lowered = "armchair" ∨ lowered = "a" then .ok .armchair
  else if lowered = "zigzag" ∨ lowered = "z" then .ok .zigzag
  else if lowered = "chiral" ∨ lowered = "c" then .ok .chiral
  else .error (.parameter (.chiralTypeName lowered))

/-- Reads a handedness, in any case. -/
def Handedness.read (s : String) : Except (Error α) Handedness :=
  let lowered := s.toLower
  if lowered = "right" ∨ lowered = "r" then .ok .right
  else if lowered = "left" ∨ lowered = "l" then .ok .left
  else .error (.parameter (.handednessName lowered))

namespace Chirality

/-- The text without the parentheses around it. -/
def stripParentheses (cs : List Char) : List Char :=
  ((cs.dropWhile (· == '(')).reverse.dropWhile (· == ')')).reverse

/-- Reads two indices. -/
def read (s : String) : Except (Error α) Chirality :=
  let inner := stripParentheses (Text.trim s.toList)
  let parts := (Text.cut (fun c => c == ',' || isBlank c) inner).filter (!·.isEmpty)
  match parts with
  | [first, second] =>
    match readIndex first, readIndex second with
    | some n, some m => ofIndices n m
    | _, _ => .error (.parameter (.indicesText s))
  | _ => .error (.parameter (.indicesText s))

end Chirality

end Honeycomb
