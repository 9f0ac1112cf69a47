import Mathlib
import Honeycomb.Number.Digits
import Honeycomb.Number.Reading
import Honeycomb.Proofs.Text.Words

/-!
# Numbers that are written and read again

* `natDigits_digitsValue` — digits that do not start with a zero are those of their value.
* `readCount_toString` — a count reads back as itself.
* `Double.rounded` — a double rounded to a number of decimals. `Double.rounded_spec` — it is the
  double nearest to a decimal at most half a unit of the last place away. `Double.restored` — the same
  for a finite double; an infinity stays, and what is not a number stays so.
* `readDouble_fixedText` — a double that was written with so many decimals reads back as this.
* `isWord_fixedText` — the text of a double is one word, whatever the double.
-/

set_option autoImplicit false

namespace Honeycomb

/-! ## Digits -/

theorem digitsValue_eq (cs : List Char) : digitsValue cs = Nat.ofDigitChars 10 cs 0 :=
  Nat.ofDigitChars_eq_foldl.symm

theorem digitsValue_natDigits (n : Nat) : digitsValue (natDigits n) = n := by
  rw [digitsValue_eq]
  exact Nat.ofDigitChars_ten_toDigits

theorem isDigit_of_mem_natDigits {n : Nat} {c : Char} (hc : c ∈ natDigits n) : c.isDigit = true :=
  Nat.isDigit_of_mem_toDigits (by decide) (by decide) hc

theorem natDigits_ne_nil (n : Nat) : natDigits n ≠ [] :=
  Nat.toDigits_ne_nil

/-- A digit is no blank, no sign, no point and no hash sign. -/
theorem ne_of_isDigit {c d : Char} (hc : c.isDigit = true) (hd : d.isDigit = false) : c ≠ d := by
  rintro rfl
  rw [hc] at hd
  cases hd

/-- The visible characters of ASCII are no blanks. -/
theorem isBlank_of_visible {c : Char} (hlow : 32 < c.toNat) (hhigh : c.toNat < 127) :
    isBlank c = false := by
  have hranges : ∀ range ∈ blankRanges, range.2 < 33 ∨ 126 < range.1 := by decide
  rw [isBlank, List.any_eq_false]
  intro range hrange
  have hapart := hranges range hrange
  simp only [Bool.and_eq_true, decide_eq_true_eq]
  omega

theorem toNat_of_isDigit {c : Char} (hc : c.isDigit = true) : 48 ≤ c.toNat ∧ c.toNat ≤ 57 := by
  simp only [Char.isDigit, Bool.and_eq_true, decide_eq_true_eq] at hc
  exact hc

theorem isBlank_of_isDigit {c : Char} (hc : c.isDigit = true) : isBlank c = false := by
  have hrange := toNat_of_isDigit hc
  exact isBlank_of_visible (by omega) (by omega)

theorem isAlpha_of_isDigit {c : Char} (hc : c.isDigit = true) : c.isAlpha = false := by
  have hhigh := (toNat_of_isDigit hc).2
  have hupper : ¬65 ≤ c.val := fun h => absurd (show 65 ≤ c.toNat from h) (by omega)
  have hlower : ¬97 ≤ c.val := fun h => absurd (show 97 ≤ c.toNat from h) (by omega)
  simp [Char.isAlpha, Char.isUpper, Char.isLower, hupper, hlower]

/-- The number of decimal digits. -/
def decimalPlaces (n : Nat) : Nat :=
  (natDigits n).length

theorem decimalPlaces_le_iff {n k : Nat} (hk : 0 < k) : decimalPlaces n ≤ k ↔ n < 10 ^ k :=
  Nat.length_toDigits_le_iff (by decide) hk

theorem digitsValue_append (xs ys : List Char) :
    digitsValue (xs ++ ys) = digitsValue xs * 10 ^ ys.length + digitsValue ys := by
  simp only [digitsValue_eq]
  rw [Nat.ofDigitChars_append, Nat.ofDigitChars_eq_ofDigitChars_zero, mul_comm]

/-- The first digit of a positive number is not zero. -/
theorem head?_natDigits {n : Nat} (h : 0 < n) : (natDigits n).head? ≠ some '0' := by
  induction n using Nat.strong_induction_on with
  | h n ih =>
    unfold natDigits at ih ⊢
    rw [Nat.toDigits_eq_if (by decide)]
    split
    · simpa using h.ne'
    · rw [List.head?_append_of_ne_nil _ Nat.toDigits_ne_nil]
      exact ih (n / 10) (by omega) (by omega)

theorem pos_of_natDigits_eq {n : Nat} {cs : List Char} (h : natDigits n = cs)
    (hhead : cs.head? ≠ some '0') : 0 < n := by
  by_contra hzero
  rw [← h, Nat.eq_zero_of_not_pos hzero] at hhead
  exact hhead rfl

theorem digitChar_of_isDigit {c : Char} (h : c.isDigit = true) : (c.toNat - 48).digitChar = c := by
  have hrange := toNat_of_isDigit h
  apply Char.toNat_inj.1
  rw [Nat.toNat_digitChar_of_lt_ten (by omega)]
  omega

/-- **Digits that do not start with a zero are those of their value.** -/
theorem natDigits_digitsValue {cs : List Char} (hdigits : ∀ c ∈ cs, c.isDigit = true)
    (hne : cs ≠ []) (hhead : cs.head? ≠ some '0') : natDigits (digitsValue cs) = cs := by
  induction cs using List.reverseRecOn with
  | nil => exact absurd rfl hne
  | append_singleton xs d ih =>
    have hd := hdigits d (by simp)
    have hrange := toNat_of_isDigit hd
    have hvalue : digitsValue [d] = d.toNat - 48 := by
      rw [digitsValue, List.foldl_cons, List.foldl_nil]
      exact zero_add _
    have hlast : natDigits (digitsValue [d]) = [d] := by
      rw [hvalue, natDigits, Nat.toDigits_of_lt_base (by omega), digitChar_of_isDigit hd]
    rw [digitsValue_append, List.length_singleton, pow_one]
    by_cases hxs : xs = []
    · subst hxs
      rw [show digitsValue [] = 0 from rfl, zero_mul, zero_add]
      exact hlast
    · rw [List.head?_append_of_ne_nil _ hxs] at hhead
      have hprefix := ih (fun c hc => hdigits c (by simp [hc])) hxs hhead
      have hpos := pos_of_natDigits_eq hprefix hhead
      -- a digit behind the digits of a positive number
      rw [mul_comm, natDigits, ← Nat.toDigits_append_toDigits (by decide) hpos (by omega)]
      exact congrArg₂ (· ++ ·) hprefix hlast

theorem digitsValue_pos {cs : List Char} (hdigits : ∀ c ∈ cs, c.isDigit = true) (hne : cs ≠ [])
    (hhead : cs.head? ≠ some '0') : 0 < digitsValue cs :=
  pos_of_natDigits_eq (natDigits_digitsValue hdigits hne hhead) hhead

/-! ## Counts -/

theorem readDigits_of_isDigit {cs : List Char} (hne : cs ≠ []) (h : ∀ c ∈ cs, c.isDigit = true) :
    readDigits cs = some (digitsValue cs) := by
  have hempty : cs.isEmpty = false := by simpa using hne
  have hall : cs.all Char.isDigit = true := by simpa using h
  rw [readDigits, hempty, hall]
  rfl

theorem readDigits_toString (n : Nat) : readDigits (toString n).toList = some n := by
  rw [Nat.toString_eq_repr, Nat.toList_repr]
  change readDigits (natDigits n) = some n
  rw [readDigits_of_isDigit (natDigits_ne_nil n) fun c hc => isDigit_of_mem_natDigits hc,
    digitsValue_natDigits]

theorem isDigit_of_mem_toString {n : Nat} {c : Char} (hc : c ∈ (toString n).toList) :
    c.isDigit = true := by
  rw [Nat.toString_eq_repr, Nat.toList_repr] at hc
  exact isDigit_of_mem_natDigits hc

/-- A count that is read has sixty-four bits. -/
theorem lt_of_readCount {cs : List Char} {n : Nat} (h : readCount cs = some n) : n < 2 ^ 64 := by
  unfold readCount readNatBelow at h
  exact of_decide_eq_true (Option.filter_eq_some_iff.1 h).2

/-- A count reads back as itself. -/
theorem readCount_toString {n : Nat} (h : n < 2 ^ 64) : readCount (toString n).toList = some n := by
  have hread := readDigits_toString n
  have hunsigned : ∀ rest, (toString n).toList ≠ '+' :: rest := by
    intro rest heq
    have hplus : '+' ∈ (toString n).toList := by
      rw [heq]
      exact List.mem_cons_self
    exact ne_of_isDigit (isDigit_of_mem_toString hplus) (by decide) rfl
  unfold readCount readNatBelow
  split
  case h_1 rest heq => exact absurd heq (hunsigned rest)
  case h_2 =>
    dsimp only
    rw [hread, Option.filter_some, Nat.pow_eq, decide_eq_true h]
    rfl

theorem isWord_toString (n : Nat) : Text.IsWord (toString n).toList := by
  refine ⟨?_, fun c hc => isBlank_of_isDigit (isDigit_of_mem_toString hc)⟩
  rw [Nat.toString_eq_repr, Nat.toList_repr]
  exact natDigits_ne_nil n

/-! ## Rounding -/

/-- The whole number that is taken for a quotient is at most one half away from it. -/
theorem abs_sub_roundDiv_le (num : Nat) {den : Nat} (hden : 0 < den) :
    |(num / den : ℚ) - roundDiv num den| ≤ 1 / 2 := by
  have hsplit : den * (num / den) + num % den = num := Nat.div_add_mod num den
  have hlt : num % den < den := Nat.mod_lt num hden
  have hbounds : 2 * (den * roundDiv num den) ≤ 2 * num + den ∧
      2 * num ≤ 2 * (den * roundDiv num den) + den := by
    unfold roundDiv
    dsimp only
    split_ifs
    · omega
    · rw [Nat.mul_add]
      omega
    · omega
    · rw [Nat.mul_add]
      omega
  have hpos : (0 : ℚ) < den := by exact_mod_cast hden
  have hlow : 2 * ((den : ℚ) * roundDiv num den) ≤ 2 * num + den := by exact_mod_cast hbounds.1
  have hhigh : 2 * (num : ℚ) ≤ 2 * (den * roundDiv num den) + den := by exact_mod_cast hbounds.2
  have hdiv : (num / den : ℚ) * den = num := div_mul_cancel₀ _ hpos.ne'
  rw [abs_le]
  constructor <;> nlinarith

/-- A power with an exponent of either sign as a quotient of powers. -/
theorem zpow_eq_div (base : Nat) (hbase : 0 < base) (e : Int) :
    (base : ℚ) ^ e = ((base ^ e.toNat : Nat) : ℚ) / ((base ^ (-e).toNat : Nat) : ℚ) := by
  have hne : (base : ℚ) ≠ 0 := by exact_mod_cast hbase.ne'
  have hsplit : e = (e.toNat : Int) - ((-e).toNat : Int) := by omega
  conv_lhs => rw [hsplit]
  rw [zpow_sub₀ hne, zpow_natCast, zpow_natCast]
  push_cast
  rfl

/-- **The digits that are written stand for a number at most half a unit of the last place
away.** -/
theorem abs_sub_scaledRound_le (m : Nat) (q places : Int) :
    |(m : ℚ) * 2 ^ q * 10 ^ places - scaledRound m q places| ≤ 1 / 2 := by
  have hden : 0 < 2 ^ (-q).toNat * 10 ^ (-places).toNat := by positivity
  have hexact : (m : ℚ) * 2 ^ q * 10 ^ places =
      ((m * 2 ^ q.toNat * 10 ^ places.toNat : Nat) : ℚ) /
        ((2 ^ (-q).toNat * 10 ^ (-places).toNat : Nat) : ℚ) := by
    have htwo := zpow_eq_div 2 (by decide) q
    have hten := zpow_eq_div 10 (by decide) places
    push_cast at htwo hten ⊢
    rw [htwo, hten]
    ring
  rw [hexact]
  exact abs_sub_roundDiv_le _ hden

/-- A double rounded to a number of decimals; a tie goes to the even digit. -/
def Double.rounded (places : Nat) (x : Double) : Double :=
  match Binary64.ofDouble x with
  | .finite negative m q => Binary64.nearestDecimal negative (scaledRound m q places) (-places)
  | _ => x

/-- What comes back of a double that is written with some decimals: what is not a number has lost its
sign, and an infinity is kept. -/
def Double.restored (places : Nat) (x : Double) : Double :=
  match Binary64.ofDouble x with
  | .nan => .nan
  | _ => x.rounded places

/-! ## Decimals -/

/-- Where the point stands among the digits. -/
theorem pointed_eq {places n : Nat} (hplaces : 0 < places) :
    ∃ whole decimals, pointed places n = whole ++ '.' :: decimals ∧ whole ≠ [] ∧
      (∀ c ∈ whole ++ decimals, c.isDigit = true) ∧ decimals.length = places ∧
        digitsValue (whole ++ decimals) = n := by
  obtain ⟨padded, hpadded⟩ :
      ∃ p, p = List.replicate (places + 1 - (natDigits n).length) '0' ++ natDigits n := ⟨_, rfl⟩
  have hlength : places + 1 ≤ padded.length := by
    rw [hpadded, List.length_append, List.length_replicate]
    omega
  have hdigits : ∀ c ∈ padded, c.isDigit = true := by
    intro c hc
    rw [hpadded] at hc
    rcases List.mem_append.1 hc with hc | hc
    · rw [List.eq_of_mem_replicate hc]
      decide
    · exact isDigit_of_mem_natDigits hc
  have hvalue : digitsValue padded = n := by
    -- zeros in front do not count
    rw [hpadded, digitsValue_eq, Nat.ofDigitChars_append, Nat.ofDigitChars_replicate_zero,
      Nat.mul_zero, ← digitsValue_eq, digitsValue_natDigits]
  refine ⟨padded.take (padded.length - places), padded.drop (padded.length - places), ?_, ?_, ?_,
    ?_, ?_⟩
  · have hdecimals : (padded.drop (padded.length - places)).isEmpty = false := by
      rw [List.isEmpty_eq_false_iff, ← List.length_pos_iff, List.length_drop]
      omega
    simp only [pointed, ← hpadded, hdecimals]
    rfl
  · rw [← List.length_pos_iff, List.length_take]
    omega
  · rwa [List.take_append_drop]
  · rw [List.length_drop]
    omega
  · rwa [List.take_append_drop]

theorem readMagnitude_pointed {places : Nat} (hplaces : 0 < places) (negative : Bool) (n : Nat) :
    readMagnitude negative (pointed places n) =
      some (Binary64.nearestDecimal negative n (-places)) := by
  obtain ⟨whole, decimals, heq, hne, hdigits, hlength, hvalue⟩ := pointed_eq (n := n) hplaces
  have hwhole : ∀ c ∈ whole, c.isDigit = true := fun c hc =>
    hdigits c (List.mem_append_left decimals hc)
  have hdecimals : ∀ c ∈ decimals, c.isDigit = true := fun c hc =>
    hdigits c (List.mem_append_right whole hc)
  have htake : (whole ++ '.' :: decimals).takeWhile Char.isDigit = whole := by
    rw [List.takeWhile_append_of_pos hwhole]
    simp
  have hdrop : (whole ++ '.' :: decimals).dropWhile Char.isDigit = '.' :: decimals := by
    rw [List.dropWhile_append_of_pos hwhole]
    simp
  have hends : decimals.takeWhile Char.isDigit = decimals ∧
      decimals.dropWhile Char.isDigit = [] := by
    constructor
    · exact List.takeWhile_eq_self_iff.2 hdecimals
    · exact List.dropWhile_eq_nil_iff.2 hdecimals
  have hwholeEmpty : whole.isEmpty = false := by simpa using hne
  rw [heq, readMagnitude]
  simp only [htake, hdrop, hends.1, hends.2, hwholeEmpty, Bool.false_and, readExponent,
    Option.map_some, hvalue, hlength]
  simp

/-! ## Doubles -/

theorem Double.ofDouble_of_isFinite {x : Double} (h : x.isFinite = true) :
    ∃ negative m q, Binary64.ofDouble x = .finite negative m q := by
  have hbits : x.bits.toNat % 2 ^ 63 < 2047 * 2 ^ 52 := by
    have hlt : (x.bits &&& 0x7fffffffffffffff).toNat < 2047 * 2 ^ 52 := by
      simpa [isFinite, abs, infinity, UInt64.lt_iff_toNat_lt] using h
    rwa [UInt64.toNat_and, show (0x7fffffffffffffff : UInt64).toNat = 2 ^ 63 - 1 from rfl,
      Nat.and_two_pow_sub_one_eq_mod] at hlt
  have hfield : x.bits.toNat / 2 ^ 52 % 2 ^ 11 ≠ 2047 := by omega
  unfold Binary64.ofDouble Binary64.ofBits
  simp only [Nat.pow_eq]
  rw [if_neg hfield]
  split
  · exact ⟨_, _, _, rfl⟩
  · exact ⟨_, _, _, rfl⟩

theorem signText_toList (negative : Bool) :
    (signText negative).toList = if negative then ['-'] else [] := by
  cases negative <;> rfl

/-- What is read back of a sign, digits and a point. -/
theorem readDouble_pointed {places : Nat} (hplaces : 0 < places) (negative : Bool) (n : Nat) :
    readDouble ((signText negative).toList ++ pointed places n) =
      some (Binary64.nearestDecimal negative n (-places)) := by
  obtain ⟨whole, decimals, heq, hne, hdigits, -, -⟩ := pointed_eq (n := n) hplaces
  have hsign : readSign ((signText negative).toList ++ pointed places n) =
      (negative, pointed places n) := by
    cases negative with
    | true => rfl
    | false =>
      obtain ⟨c, more, rfl⟩ := List.exists_cons_of_ne_nil hne
      have hc : c.isDigit = true := hdigits c (by simp)
      have hminus : c ≠ '-' := ne_of_isDigit hc (by decide)
      have hplus : c ≠ '+' := ne_of_isDigit hc (by decide)
      rw [heq, signText_toList, List.cons_append]
      unfold readSign
      split
      · simp_all
      · simp_all
      · rfl
  -- no word has a point in it
  have hpoint : '.' ∈ (pointed places n).map Char.toLower := by
    rw [heq]
    simp
  have hword : ∀ word : String, '.' ∉ word.toList →
      (pointed places n).map Char.toLower ≠ word.toList := by
    intro word hpointless heq
    rw [heq] at hpoint
    exact hpointless hpoint
  have hinf := hword "inf" (by decide)
  have hinfinity := hword "infinity" (by decide)
  have hnan := hword "nan" (by decide)
  unfold readDouble
  simp only [hsign, hinf, hinfinity, hnan, or_self, if_false]
  exact readMagnitude_pointed hplaces negative n

/-- What a finite double is rounded to is the double nearest to a decimal at most half a unit of the
last place away. -/
theorem Double.rounded_spec (places : Nat) {x : Double} (h : x.isFinite = true) :
    ∃ negative m q n, Binary64.ofDouble x = .finite negative m q ∧
      x.rounded places = Binary64.nearestDecimal negative n (-places) ∧
      |(m : ℚ) * 2 ^ q * 10 ^ (places : Int) - n| ≤ 1 / 2 := by
  obtain ⟨negative, m, q, hx⟩ := ofDouble_of_isFinite h
  refine ⟨negative, m, q, scaledRound m q places, hx, ?_, abs_sub_scaledRound_le m q places⟩
  rw [rounded, hx]

/-- What is written for doubles that are no numbers. -/
theorem fixedText_cases (places : Nat) (x : Double) :
    (∃ negative n, (fixedText places x).toList = (signText negative).toList ++ pointed places n) ∨
      (fixedText places x).toList ∈ [['N', 'a', 'N'], ['i', 'n', 'f'], ['-', 'i', 'n', 'f']] := by
  unfold fixedText
  split
  · exact .inr (by simp)
  · rename_i negative _
    cases negative
    · exact .inr (by decide)
    · exact .inr (by decide)
  · rename_i negative m q _
    exact .inl ⟨negative, scaledRound m q places, by simp⟩

theorem Double.restored_of_isFinite (places : Nat) {x : Double} (h : x.isFinite = true) :
    x.restored places = x.rounded places := by
  obtain ⟨negative, m, q, hx⟩ := ofDouble_of_isFinite h
  rw [restored, hx]

/-- An infinity is known by its sign. -/
theorem Double.eq_of_ofDouble_infinite {x : Double} {negative : Bool}
    (h : Binary64.ofDouble x = .infinite negative) :
    x = if negative then -.infinity else .infinity := by
  have hlt : x.bits.toNat < 2 ^ 64 := x.bits.toNat_lt
  have hbits : x.bits.toNat = (if negative then 2 ^ 63 else 0) + 2047 * 2 ^ 52 := by
    unfold Binary64.ofDouble Binary64.ofBits at h
    simp only [Nat.pow_eq] at h
    split_ifs at h with hfield hfraction
    obtain rfl := Binary64.infinite.inj h
    split_ifs with hnegative
    · have := of_decide_eq_true hnegative
      omega
    · have := of_decide_eq_false (Bool.not_eq_true _ ▸ hnegative)
      omega
  apply Double.ext
  rw [← UInt64.toNat_inj, hbits]
  cases negative <;> rfl

/-- **Any double that is written with some decimals reads back as what is restored of it.** -/
theorem readDouble_fixedText {places : Nat} (hplaces : 0 < places) (x : Double) :
    readDouble (fixedText places x).toList = some (x.restored places) := by
  cases hx : Binary64.ofDouble x with
  | nan =>
    have htext : (fixedText places x).toList = ['N', 'a', 'N'] := by simp [fixedText, hx]
    rw [htext, Double.restored, hx]
    rfl
  | infinite negative =>
    have htext : (fixedText places x).toList = if negative then ['-', 'i', 'n', 'f']
        else ['i', 'n', 'f'] := by
      cases negative <;> simp [fixedText, hx, infinityText, signText]
    rw [htext, Double.restored, Double.rounded, hx, Double.eq_of_ofDouble_infinite hx]
    cases negative <;> rfl
  | finite negative m q =>
    have htext : (fixedText places x).toList =
        (signText negative).toList ++ pointed places (scaledRound m q places) := by
      rw [fixedText, hx]
      simp
    rw [htext, readDouble_pointed hplaces, Double.restored, Double.rounded, hx]

/-- The characters of the text of a double. -/
def IsNumeralChar (c : Char) : Prop :=
  c.isDigit = true ∨ c ∈ ['-', '.', 'N', 'a', 'i', 'n', 'f']

theorem IsNumeralChar.isBlank_eq_false {c : Char} (h : IsNumeralChar c) : isBlank c = false := by
  rcases h with h | h
  · exact isBlank_of_isDigit h
  · have hall : ∀ c ∈ ['-', '.', 'N', 'a', 'i', 'n', 'f'], 32 < c.toNat ∧ c.toNat < 127 := by
      simp
    exact isBlank_of_visible (hall c h).1 (hall c h).2

theorem IsNumeralChar.ne_hash {c : Char} (h : IsNumeralChar c) : c ≠ '#' := by
  rintro rfl
  revert h
  unfold IsNumeralChar
  decide

theorem isNumeralChar_of_mem_fixedText {places : Nat} (hplaces : 0 < places) {x : Double}
    {c : Char} (hc : c ∈ (fixedText places x).toList) : IsNumeralChar c := by
  rcases fixedText_cases places x with ⟨negative, n, htext⟩ | htext
  · obtain ⟨whole, decimals, heq, -, hdigits, -, -⟩ := pointed_eq (n := n) hplaces
    rw [htext, heq, signText_toList] at hc
    rcases List.mem_append.1 hc with hc | hc
    · cases negative <;> simp_all [IsNumeralChar]
    · rcases List.mem_append.1 hc with hc | hc
      · exact .inl (hdigits c (List.mem_append_left decimals hc))
      · rcases List.mem_cons.1 hc with rfl | hc
        · exact .inr (by decide)
        · exact .inl (hdigits c (List.mem_append_right whole hc))
  · have hall : ∀ word ∈ [['N', 'a', 'N'], ['i', 'n', 'f'], ['-', 'i', 'n', 'f']],
        ∀ c ∈ word, c ∈ ['-', '.', 'N', 'a', 'i', 'n', 'f'] := by
      simp
    exact .inr (hall _ htext c hc)

/-- The text of a double is one word. -/
theorem isWord_fixedText {places : Nat} (hplaces : 0 < places) (x : Double) :
    Text.IsWord (fixedText places x).toList := by
  refine ⟨?_, fun c hc => (isNumeralChar_of_mem_fixedText hplaces hc).isBlank_eq_false⟩
  intro hnil
  have hback := readDouble_fixedText hplaces x
  have hnone : readDouble [] = none := rfl
  rw [hnil, hnone] at hback
  cases hback

end Honeycomb
