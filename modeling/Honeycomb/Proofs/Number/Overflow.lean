import Mathlib

/-!
# Whole numbers in words

A formula in whole numbers is computed in words of limited sizes, and what does not fit into a word
wraps around.

* `WordSize.Holds` — the numbers that a word can hold, in two's complement; `WordSize.wrap` — what a
  word keeps of any number.
* `Formula` — constants, entries, and operations with the size of the word that takes the result.
* `Formula.exact`, `Formula.computed` — its value without and with wrapping; `Formula.results` — the
  value of every operation in it. `Formula.NeverOverflows` — each fits into its word.
* `Formula.reach?` — how large a formula can become, by the magnitudes of its parts alone.
* `Formula.chain` — an operation on one formula after another.

Principal results: `Formula.computed_eq`, a formula that never overflows is computed exactly, and
`Formula.neverOverflows_of_reach?`, magnitudes are enough to see that it never does.
-/

set_option autoImplicit false

namespace Honeycomb

/-- The size of a word. -/
inductive WordSize where
  | half
  | single
  | double
deriving DecidableEq

namespace WordSize

/-- The number of bits. -/
def bits : WordSize → Nat
  | half => 32
  | single => 64
  | double => 128

/-- A number that a word can hold. -/
def Holds (size : WordSize) (v : Int) : Prop :=
  -2 ^ (size.bits - 1) ≤ v ∧ v < 2 ^ (size.bits - 1)

/-- What a word keeps of a number. -/
def wrap (size : WordSize) (v : Int) : Int :=
  (BitVec.ofInt size.bits v).toInt

variable {size : WordSize} {v : Int}

theorem bits_pos (size : WordSize) : 0 < size.bits := by
  cases size <;> decide

/-- A number that fits is kept. -/
theorem Holds.wrap_eq (h : size.Holds v) : size.wrap v = v :=
  BitVec.toInt_ofInt_eq_self size.bits_pos h.1 h.2

theorem holds_of_natAbs_lt (h : v.natAbs < 2 ^ (size.bits - 1)) : size.Holds v := by
  have hcast : ((2 ^ (size.bits - 1) : Nat) : Int) = 2 ^ (size.bits - 1) := by push_cast; rfl
  unfold Holds
  omega

end WordSize

/-- An operation on whole numbers. -/
inductive WholeOperation where
  | sum
  | difference
  | product
  | lesser
  | greater

namespace WholeOperation

/-- The result. -/
def apply : WholeOperation → Int → Int → Int
  | sum => (· + ·)
  | difference => (· - ·)
  | product => (· * ·)
  | lesser => min
  | greater => max

/-- The greatest magnitude of a result, for operands up to some magnitudes. -/
def reach : WholeOperation → Nat → Nat → Nat
  | sum => (· + ·)
  | difference => (· + ·)
  | product => (· * ·)
  | lesser => max
  | greater => max

theorem natAbs_apply_le (op : WholeOperation) {a b : Int} {m n : Nat} (ha : a.natAbs ≤ m)
    (hb : b.natAbs ≤ n) : (op.apply a b).natAbs ≤ op.reach m n := by
  cases op with
  | sum | difference | lesser | greater =>
    dsimp only [apply, reach]
    omega
  | product =>
    dsimp only [apply, reach]
    rw [Int.natAbs_mul]
    exact Nat.mul_le_mul ha hb

end WholeOperation

/-- A formula in whole numbers. The result of each operation is put into a word. -/
inductive Formula (ι : Type) where
  | constant (c : Int)
  | entry (i : ι)
  | operation (op : WholeOperation) (size : WordSize) (f g : Formula ι)

namespace Formula

variable {ι : Type}

/-- The value, however large the numbers become. -/
def exact (entries : ι → Int) : Formula ι → Int
  | constant c => c
  | entry i => entries i
  | operation op _ f g => op.apply (f.exact entries) (g.exact entries)

/-- The value that comes out of the words. -/
def computed (entries : ι → Int) : Formula ι → Int
  | constant c => c
  | entry i => entries i
  | operation op size f g => size.wrap (op.apply (f.computed entries) (g.computed entries))

/-- The value of each operation, with the size of its word. -/
def results (entries : ι → Int) : Formula ι → List (WordSize × Int)
  | constant _ => []
  | entry _ => []
  | operation op size f g => f.results entries ++ g.results entries ++
      [(size, op.apply (f.exact entries) (g.exact entries))]

/-- The value of every operation fits into its word. -/
def NeverOverflows (entries : ι → Int) (f : Formula ι) : Prop :=
  ∀ r ∈ f.results entries, r.1.Holds r.2

variable {entries : ι → Int} {f g : Formula ι} {op : WholeOperation} {size : WordSize}

theorem neverOverflows_operation_iff : (operation op size f g).NeverOverflows entries ↔
    f.NeverOverflows entries ∧ g.NeverOverflows entries ∧
      size.Holds (op.apply (f.exact entries) (g.exact entries)) := by
  simp only [NeverOverflows, results, List.forall_mem_append, List.forall_mem_singleton, and_assoc]

/-- **A formula that never overflows is computed exactly.** -/
theorem computed_eq (h : f.NeverOverflows entries) : f.computed entries = f.exact entries := by
  induction f with
  | constant c => rfl
  | entry i => rfl
  | operation op size f g ihf ihg =>
    obtain ⟨hf, hg, hfits⟩ := neverOverflows_operation_iff.1 h
    rw [computed, ihf hf, ihg hg, hfits.wrap_eq]
    rfl

/-! ## Magnitudes -/

/-- The greatest magnitude of a formula over entries up to some magnitude, unless an operation can
become too large for its word. -/
def reach? (bound : Nat) : Formula ι → Option Nat
  | constant c => some c.natAbs
  | entry _ => some bound
  | operation op size f g => do
    let m ← f.reach? bound
    let n ← g.reach? bound
    if op.reach m n < 2 ^ (size.bits - 1) then some (op.reach m n) else none

theorem reach?_operation_eq_some_iff {bound k : Nat} :
    (operation op size f g).reach? bound = some k ↔ ∃ m n, f.reach? bound = some m ∧
      g.reach? bound = some n ∧ op.reach m n = k ∧ k < 2 ^ (size.bits - 1) := by
  simp only [reach?, Option.bind_eq_bind, Option.bind_eq_some_iff, Option.ite_none_right_eq_some,
    Option.some.injEq]
  constructor
  · rintro ⟨m, hm, n, hn, hlt, rfl⟩
    exact ⟨m, n, hm, hn, rfl, hlt⟩
  · rintro ⟨m, n, hm, hn, rfl, hlt⟩
    exact ⟨m, hm, n, hn, hlt, rfl⟩

/-- **Magnitudes are enough to see that a formula never overflows.** -/
theorem neverOverflows_of_reach? {bound k : Nat} (hentries : ∀ i, (entries i).natAbs ≤ bound)
    (h : f.reach? bound = some k) :
    f.NeverOverflows entries ∧ (f.exact entries).natAbs ≤ k := by
  induction f generalizing k with
  | constant c =>
    cases h
    exact ⟨fun r hr => absurd hr List.not_mem_nil, le_refl _⟩
  | entry i =>
    cases h
    exact ⟨fun r hr => absurd hr List.not_mem_nil, hentries i⟩
  | operation op size f g ihf ihg =>
    obtain ⟨m, n, hm, hn, rfl, hlt⟩ := reach?_operation_eq_some_iff.1 h
    obtain ⟨hf, hfm⟩ := ihf hm
    obtain ⟨hg, hgn⟩ := ihg hn
    have hresult := op.natAbs_apply_le hfm hgn
    have hfits := WordSize.holds_of_natAbs_lt (hresult.trans_lt hlt)
    exact ⟨neverOverflows_operation_iff.2 ⟨hf, hg, hfits⟩, hresult⟩

/-- What is small enough never overflows and is computed exactly. -/
theorem computed_eq_of_reach? {bound : Nat} (hentries : ∀ i, (entries i).natAbs ≤ bound)
    (h : (f.reach? bound).isSome) :
    f.NeverOverflows entries ∧ f.computed entries = f.exact entries := by
  obtain ⟨k, hk⟩ := Option.isSome_iff_exists.1 h
  obtain ⟨hnever, -⟩ := neverOverflows_of_reach? hentries hk
  exact ⟨hnever, computed_eq hnever⟩

/-! ## Chains -/

/-- An operation on one formula after another. -/
def chain (op : WholeOperation) (size : WordSize) (start : Formula ι) (parts : List (Formula ι)) :
    Formula ι :=
  parts.foldl (operation op size) start

theorem exact_chain (op : WholeOperation) (size : WordSize) (start : Formula ι)
    (parts : List (Formula ι)) : (chain op size start parts).exact entries =
      (parts.map (exact entries)).foldl op.apply (start.exact entries) := by
  induction parts generalizing start with
  | nil => rfl
  | cons part rest ih => exact ih (operation op size start part)

end Formula

end Honeycomb
