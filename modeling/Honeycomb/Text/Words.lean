import Honeycomb.Text.Blank

/-!
# Cutting text

Text is taken apart as a list of characters.

* `cut p` — the pieces between the characters that `p` marks, empty ones included.
* `words` — the pieces between blanks, empty ones left out.
* `lines` — the pieces that end in a line feed; a carriage return before it belongs to it.
* `trim`, `trimStart`, `trimEnd` — without the blanks at the ends.
* `splitAtFirst`, `afterFirst` — around the first occurrence of a character or of a text.
* `padLeft`, `padRight` — columns of a least width, counted in characters.
-/

set_option autoImplicit false

namespace Honeycomb.Text

/-- The pieces of `cs` between the marked characters. There is one more piece than there are
marks. -/
def cut (p : Char → Bool) (cs : List Char) : List (List Char) :=
  match _h : cs.dropWhile (!p ·) with
  | [] => [cs]
  | _ :: rest => cs.takeWhile (!p ·) :: cut p rest
termination_by cs.length
decreasing_by
  have := (List.dropWhile_suffix (!p ·) : cs.dropWhile (!p ·) <:+ cs).length_le
  simp only [_h, List.length_cons] at this
  omega

/-- Text without a mark is one piece. -/
theorem cut_of_unmarked {p : Char → Bool} {cs : List Char} (h : ∀ c ∈ cs, p c = false) :
    cut p cs = [cs] := by
  have hneg : ∀ x ∈ cs, (!p x) = true := fun x hx => by simp [h x hx]
  have hd : cs.dropWhile (!p ·) = [] := by
    have : (cs ++ []).dropWhile (!p ·) = List.dropWhile (!p ·) [] :=
      List.dropWhile_append_of_pos hneg
    simpa using this
  rw [cut]
  split
  · rfl
  · rename_i hx
    rw [hd] at hx
    cases hx

/-- The first mark ends the first piece. -/
theorem cut_append_mark {p : Char → Bool} {cs : List Char} {c : Char} {rest : List Char}
    (h : ∀ c ∈ cs, p c = false) (hc : p c = true) :
    cut p (cs ++ c :: rest) = cs :: cut p rest := by
  have hneg : ∀ x ∈ cs, (!p x) = true := fun x hx => by simp [h x hx]
  have hd : (cs ++ c :: rest).dropWhile (!p ·) = c :: rest := by
    rw [List.dropWhile_append_of_pos hneg]
    simp [hc]
  have ht : (cs ++ c :: rest).takeWhile (!p ·) = cs := by
    rw [List.takeWhile_append_of_pos hneg]
    simp [hc]
  rw [cut]
  split
  · rename_i hx
    rw [hd] at hx
    cases hx
  · rename_i hx
    rw [hd] at hx
    cases hx
    rw [ht]

/-- The longest pieces without a blank. -/
def words (cs : List Char) : List (List Char) :=
  (cut isBlank cs).filter (!·.isEmpty)

/-- Text without the blanks in front. -/
def trimStart (cs : List Char) : List Char :=
  cs.dropWhile isBlank

/-- Text without the blanks behind. -/
def trimEnd (cs : List Char) : List Char :=
  (cs.reverse.dropWhile isBlank).reverse

/-- Text without the blanks at either end. -/
def trim (cs : List Char) : List Char :=
  trimEnd (trimStart cs)

/-- A line without the carriage return before its line feed. -/
def dropReturn (line : List Char) : List Char :=
  if line.getLast? = some '\r' then line.dropLast else line

/-- The lines of a text. What follows the last line feed is a line unless it is empty, and
keeps its carriage return. -/
def lines (cs : List Char) : List (List Char) :=
  match (cut (· == '\n') cs).reverse with
  | [] => []
  | last :: ended =>
    let whole := ended.reverse.map dropReturn
    if last.isEmpty then whole else whole ++ [last]

/-- What stands before and after the first occurrence of a character. -/
def splitAtFirst (mark : Char) (cs : List Char) : Option (List Char × List Char) :=
  match cs.dropWhile (· != mark) with
  | [] => none
  | _ :: rest => some (cs.takeWhile (· != mark), rest)

/-- What follows the first occurrence of a text. -/
def afterFirst (part : List Char) : List Char → Option (List Char)
  | [] => if part.isEmpty then some [] else none
  | c :: cs =>
    if part.isPrefixOf (c :: cs) then some ((c :: cs).drop part.length) else afterFirst part cs

/-- Text filled with blanks in front up to a width. -/
def padLeft (width : Nat) (s : String) : String :=
  String.ofList (List.replicate (width - s.length) ' ') ++ s

/-- Text filled with blanks behind up to a width. -/
def padRight (width : Nat) (s : String) : String :=
  s ++ String.ofList (List.replicate (width - s.length) ' ')

/-- Text with ASCII capitals made small. -/
def lowered (cs : List Char) : List Char :=
  cs.map Char.toLower

end Honeycomb.Text
