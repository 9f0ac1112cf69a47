import Mathlib
import Honeycomb.Proofs.Number.Decimal

/-!
# The characters of numbers

A text that reads as a number is one word of letters, digits, signs and points, whatever stands for
the number: digits, a power of ten, an infinity or what is not a number.

* `IsNumberChar` — the characters that the text of a number has.
* `isNumberChar_of_readSigned`, …, `isNumberChar_of_readMagnitude` — those of its parts.

Principal results: `isNumberChar_of_readDouble`, `isWord_of_readDouble`.
-/

set_option autoImplicit false

namespace Honeycomb

/-- A letter, a digit, a sign or a point. -/
def IsNumberChar (c : Char) : Prop :=
  c.isAlphanum = true ∨ c ∈ ['+', '-', '.']

section

variable {c d : Char} {cs : List Char}

theorem isNumberChar_of_isAlpha (h : c.isAlpha = true) : IsNumberChar c :=
  .inl (by rw [Char.isAlphanum, h, Bool.true_or])

theorem isNumberChar_of_isDigit (h : c.isDigit = true) : IsNumberChar c :=
  .inl (by rw [Char.isAlphanum, h, Bool.or_true])

/-- Commas, brackets and other marks are in no number. -/
theorem IsNumberChar.ne (h : IsNumberChar c) (hd : d.isAlphanum = false)
    (hmark : d ∉ ['+', '-', '.']) : c ≠ d := by
  rintro rfl
  rcases h with h | h
  · rw [h] at hd
    cases hd
  · exact hmark h

theorem toNat_of_isAlpha (h : c.isAlpha = true) :
    65 ≤ c.toNat ∧ c.toNat ≤ 90 ∨ 97 ≤ c.toNat ∧ c.toNat ≤ 122 := by
  simp only [Char.isAlpha, Char.isUpper, Char.isLower, Bool.or_eq_true, Bool.and_eq_true,
    decide_eq_true_eq] at h
  exact h

theorem isBlank_of_isAlphanum (h : c.isAlphanum = true) : isBlank c = false := by
  rw [Char.isAlphanum, Bool.or_eq_true] at h
  rcases h with h | h
  · have hrange := toNat_of_isAlpha h
    exact isBlank_of_visible (by omega) (by omega)
  · exact isBlank_of_isDigit h

theorem IsNumberChar.isBlank_eq_false (h : IsNumberChar c) : isBlank c = false := by
  rcases h with h | h
  · exact isBlank_of_isAlphanum h
  · simp only [List.mem_cons, List.not_mem_nil, or_false] at h
    rcases h with rfl | rfl | rfl <;> decide

/-- Making a capital small makes no letter out of what is none. -/
theorem isAlpha_of_toLower (h : c.toLower.isAlpha = true) : c.isAlpha = true := by
  unfold Char.toLower at h
  split at h
  · next hupper =>
    rw [Char.isAlpha, Bool.or_eq_true]
    exact .inl (by simpa [Char.isUpper] using hupper)
  · exact h

/-! ## Parts of numbers -/

/-- A sign may stand in front of a number. -/
theorem mem_readSign (hc : c ∈ cs) : c = '+' ∨ c = '-' ∨ c ∈ (readSign cs).2 := by
  unfold readSign
  split
  · exact (List.mem_cons.1 hc).elim (fun h => .inr (.inl h)) fun h => .inr (.inr h)
  · exact (List.mem_cons.1 hc).elim .inl fun h => .inr (.inr h)
  · exact .inr (.inr hc)

theorem isNumberChar_of_sign (hc : c ∈ cs)
    (hbody : ∀ c ∈ (readSign cs).2, IsNumberChar c) : IsNumberChar c := by
  rcases mem_readSign hc with rfl | rfl | hc
  · exact .inr (by decide)
  · exact .inr (by decide)
  · exact hbody c hc

theorem isDigit_of_readDigits {n : Nat} (h : readDigits cs = some n) :
    ∀ c ∈ cs, c.isDigit = true := by
  unfold readDigits at h
  split at h
  · cases h
  · next hdigits =>
    have hdigits : cs ≠ [] ∧ ∀ c ∈ cs, c.isDigit = true := by simpa using hdigits
    exact hdigits.2

theorem isNumberChar_of_readSigned {i : Int} (h : readSigned cs = some i) :
    ∀ c ∈ cs, IsNumberChar c := by
  intro c hc
  unfold readSigned at h
  dsimp only at h
  obtain ⟨_, hdigits, -⟩ := Option.map_eq_some_iff.1 h
  obtain ⟨n, hn, -⟩ := Option.bind_eq_some_iff.1 hdigits
  exact isNumberChar_of_sign hc fun c hc =>
    isNumberChar_of_isDigit (isDigit_of_readDigits hn c hc)

theorem isNumberChar_of_readExponent {e : Int} (h : readExponent cs = some e) :
    ∀ c ∈ cs, IsNumberChar c := by
  cases cs with
  | nil => simp
  | cons d rest =>
    rw [readExponent] at h
    split at h
    · next hd =>
      refine List.forall_mem_cons.2 ⟨?_, isNumberChar_of_readSigned h⟩
      rcases hd with rfl | rfl
      · exact .inl (by decide)
      · exact .inl (by decide)
    · cases h

theorem isNumberChar_of_takeWhile (hc : c ∈ cs.takeWhile Char.isDigit) : IsNumberChar c :=
  isNumberChar_of_isDigit (List.mem_takeWhile_imp hc)

theorem isNumberChar_of_readMagnitude {negative : Bool} {a : Double}
    (h : readMagnitude negative cs = some a) : ∀ c ∈ cs, IsNumberChar c := by
  intro c hc
  have hexponent {missing : Bool} {rest : List Char} {value : Int → Double}
      (h : (if missing = true then none else (readExponent rest).map value) = some a) :
      ∀ c ∈ rest, IsNumberChar c := by
    split at h
    · cases h
    · obtain ⟨e, he, -⟩ := Option.map_eq_some_iff.1 h
      exact isNumberChar_of_readExponent he
  unfold readMagnitude at h
  dsimp only at h
  rw [← List.takeWhile_append_dropWhile (p := Char.isDigit) (l := cs), List.mem_append] at hc
  rcases hc with hc | hc
  · exact isNumberChar_of_takeWhile hc
  split at h
  · next r hpoint =>
    rw [hpoint, List.mem_cons, ← List.takeWhile_append_dropWhile (p := Char.isDigit) (l := r),
      List.mem_append] at hc
    rcases hc with rfl | hc | hc
    · exact .inr (by decide)
    · exact isNumberChar_of_takeWhile hc
    · exact hexponent h c hc
  · exact hexponent h c hc

/-- The words for an infinity and for what is not a number consist of letters. -/
theorem isNumberChar_of_map_toLower {w : List Char} (h : cs.map Char.toLower = w)
    (hw : ∀ c ∈ w, c.isAlpha = true) : ∀ c ∈ cs, IsNumberChar c := by
  intro c hc
  subst h
  exact isNumberChar_of_isAlpha (isAlpha_of_toLower (hw _ (List.mem_map_of_mem hc)))

/-! ## Numbers -/

variable {a : Double}

/-- **Numbers are written with letters, digits, signs and points.** -/
theorem isNumberChar_of_readDouble (h : readDouble cs = some a) : ∀ c ∈ cs, IsNumberChar c := by
  intro c hc
  refine isNumberChar_of_sign hc ?_
  unfold readDouble at h
  dsimp only at h
  split at h
  · next hword =>
    rcases hword with hword | hword
    · exact isNumberChar_of_map_toLower hword (by simp)
    · exact isNumberChar_of_map_toLower hword (by simp)
  · split at h
    · next hword => exact isNumberChar_of_map_toLower hword (by simp)
    · exact isNumberChar_of_readMagnitude h

/-- **The text of a number is one word.** -/
theorem isWord_of_readDouble (h : readDouble cs = some a) : Text.IsWord cs := by
  refine ⟨?_, fun c hc => (isNumberChar_of_readDouble h c hc).isBlank_eq_false⟩
  rintro rfl
  cases h

end

end Honeycomb
