import Mathlib
import Honeycomb.Chirality.Listing
import Honeycomb.Proofs.Lists

/-!
# Lists of chiralities are complete

* `Chirality.IsAskedFor` — what ranges and a handedness ask for; `mem_ofPair_iff`,
  `mem_listing_iff` — that is what a list has, as far as its type is wanted.
* `Chirality.LexLess` — the lexicographic order of the indices; `pairwise_ordered` — with a
  handedness the pairs of indices are taken in this order.
* `Chirality.IsPaired` — a list of tubes that are their own mirror images and of tubes that their
  mirror images follow. `isPaired_eraseDups` — leaving out repetitions from a list of such couples
  never separates a couple, by induction on the couples that are left.

Principal result: `Chirality.isListing_listing` — a list has what it is asked for, each once, in
order or with mirror images side by side.
-/

set_option autoImplicit false

namespace Honeycomb

namespace Chirality

/-! ## What is asked for -/

/-- The indices lie in the ranges. -/
def IsInRanges (n1 n2 m1 m2 : Nat) (c : Chirality) : Prop :=
  (n1 ≤ c.n ∧ c.n ≤ n2) ∧ m1 ≤ c.m ∧ c.m ≤ m2

/-- What ranges and a handedness ask for: chiralities in the ranges that have the handedness, and
without a handedness their mirror images too. -/
def IsAskedFor (n1 n2 m1 m2 : Nat) : Option Handedness → Chirality → Prop
  | some .right, c => c.IsInRanges n1 n2 m1 m2 ∧ c.m ≤ c.n
  | some .left, c => c.IsInRanges n1 n2 m1 m2 ∧ c.n ≤ c.m
  | none, c => c.IsInRanges n1 n2 m1 m2 ∨ c.mirror.IsInRanges n1 n2 m1 m2

/-- A chirality comes before another one in the lexicographic order of the indices. -/
def LexLess (c d : Chirality) : Prop :=
  c.n < d.n ∨ c.n = d.n ∧ c.m < d.m

/-- With a handedness a list is in lexicographic order. Without one it has the mirror images of its
members, and that of a tube that is not armchair stands directly before or behind it. -/
def IsArranged (cs : List Chirality) : Option Handedness → Prop
  | some _ => cs.Pairwise LexLess
  | none => (∀ c ∈ cs, c.mirror ∈ cs) ∧ ∀ i c, cs[i]? = some c → c.chiralType ≠ .armchair →
      cs[i + 1]? = some c.mirror ∨ ∃ j, i = j + 1 ∧ cs[j]? = some c.mirror

/-- A list has what it is asked for, as far as its type is wanted, without repetition. -/
structure IsListing (n1 n2 m1 m2 : Nat) (handedness : Option Handedness)
    (types : Option (List ChiralType)) (cs : List Chirality) : Prop where
  nodup : cs.Nodup
  mem_iff : ∀ c, c ∈ cs ↔ c.IsAskedFor n1 n2 m1 m2 handedness ∧
    ∀ wanted, types = some wanted → c.chiralType ∈ wanted
  arranged : IsArranged cs handedness

/-! ## Mirror images -/

section

variable {c d : Chirality}

@[simp] theorem mirror_mirror (c : Chirality) : c.mirror.mirror = c := rfl

theorem mirror_eq_comm : c.mirror = d ↔ c = d.mirror := by
  constructor
  · rintro rfl
    rfl
  · rintro rfl
    rfl

theorem mirror_eq_self_iff : c.mirror = c ↔ c.chiralType = .armchair := by
  obtain ⟨n, m, h⟩ := c
  unfold mirror chiralType
  simp only [mk.injEq]
  constructor
  · rintro ⟨rfl, -⟩
    exact if_pos rfl
  · intro harmchair
    split at harmchair
    · next heq => exact ⟨heq.symm, heq⟩
    · split at harmchair <;> cases harmchair

theorem chiralType_mirror (c : Chirality) : c.mirror.chiralType = c.chiralType := by
  simp only [mirror, chiralType, eq_comm (a := c.m) (b := c.n), or_comm (a := c.m = 0)]

theorem mirror_beq (c d : Chirality) : (d.mirror == c) = (d == c.mirror) := by
  rw [Bool.eq_iff_iff, beq_iff_eq, beq_iff_eq, mirror_eq_comm]

/-- A tube is wanted just when its mirror image is. -/
theorem isWanted_mirror (types : Option (List ChiralType)) (c : Chirality) :
    isWanted types c.mirror = isWanted types c := by
  cases types with
  | none => rfl
  | some wanted => rw [isWanted, chiralType_mirror, isWanted]

theorem isWanted_iff {types : Option (List ChiralType)} :
    isWanted types c = true ↔ ∀ wanted, types = some wanted → c.chiralType ∈ wanted := by
  cases types with
  | none => simp [isWanted]
  | some wanted => simp [isWanted]

end

/-! ## Members -/

theorem mem_naturalsFromTo {lo hi i : Nat} : i ∈ naturalsFromTo lo hi ↔ lo ≤ i ∧ i ≤ hi := by
  rw [naturalsFromTo, List.mem_range'_1]
  omega

theorem ofIndices?_eq_some_iff {n m : Nat} {c : Chirality} :
    ofIndices? n m = some c ↔ c.n = n ∧ c.m = m := by
  obtain ⟨n', m', h⟩ := c
  unfold ofIndices?
  split
  · simp [eq_comm]
  · next hzero =>
    constructor
    · intro hnone
      cases hnone
    · rintro ⟨rfl, rfl⟩
      exact absurd h hzero

/-- A pair of indices contributes what the range of this pair alone asks for. -/
theorem mem_ofPair_iff {handedness : Option Handedness} {n m : Nat} {c : Chirality} :
    c ∈ ofPair handedness n m ↔ c.IsAskedFor n n m m handedness := by
  have hrange (d : Chirality) : d.IsInRanges n n m m ↔ ofIndices? n m = some d := by
    rw [ofIndices?_eq_some_iff, IsInRanges]
    omega
  unfold ofPair IsAskedFor
  simp only [hrange]
  cases hpair : ofIndices? n m with
  | none =>
    cases handedness with
    | none => simp
    | some h => cases h <;> simp
  | some d =>
    obtain ⟨rfl, rfl⟩ := ofIndices?_eq_some_iff.1 hpair
    cases handedness with
    | none => simp [eq_comm (a := d), mirror_eq_comm]
    | some h =>
      cases h with
      | right =>
        dsimp only
        split
        · simp only [List.not_mem_nil, Option.some.injEq, false_iff, not_and]
          rintro rfl
          omega
        · simp only [List.mem_singleton, Option.some.injEq, eq_comm (a := d)]
          refine (and_iff_left_of_imp ?_).symm
          rintro rfl
          omega
      | left =>
        dsimp only
        split
        · simp only [List.not_mem_nil, Option.some.injEq, false_iff, not_and]
          rintro rfl
          omega
        · simp only [List.mem_singleton, Option.some.injEq, eq_comm (a := d)]
          refine (and_iff_left_of_imp ?_).symm
          rintro rfl
          omega

variable {n1 n2 m1 m2 : Nat} {handedness : Option Handedness} {types : Option (List ChiralType)}
  {c : Chirality}

theorem isInRanges_iff : c.IsInRanges n1 n2 m1 m2 ↔
    ∃ n ∈ naturalsFromTo n1 n2, ∃ m ∈ naturalsFromTo m1 m2, c.IsInRanges n n m m := by
  simp only [mem_naturalsFromTo]
  constructor
  · rintro ⟨hn, hm⟩
    exact ⟨c.n, hn, c.m, hm, ⟨le_rfl, le_rfl⟩, le_rfl, le_rfl⟩
  · rintro ⟨n, hn, m, hm, hcn, hcm⟩
    unfold IsInRanges
    omega

theorem isAskedFor_iff : c.IsAskedFor n1 n2 m1 m2 handedness ↔
    ∃ n ∈ naturalsFromTo n1 n2, ∃ m ∈ naturalsFromTo m1 m2, c.IsAskedFor n n m m handedness := by
  unfold IsAskedFor
  split
  · rw [isInRanges_iff]
    simp only [← exists_and_right, and_assoc]
  · rw [isInRanges_iff]
    simp only [← exists_and_right, and_assoc]
  · rw [isInRanges_iff, isInRanges_iff]
    simp only [← exists_or, ← and_or_left]

/-- **A list has what it is asked for**, as far as its type is wanted. -/
theorem mem_listing_iff : c ∈ listing n1 n2 m1 m2 handedness types ↔
    c.IsAskedFor n1 n2 m1 m2 handedness ∧
      ∀ wanted, types = some wanted → c.chiralType ∈ wanted := by
  unfold listing
  simp only [List.mem_eraseDups, List.mem_filter, List.mem_flatMap, mem_ofPair_iff, isWanted_iff,
    ← isAskedFor_iff]

/-! ## Order and repetition -/

/-- A list without repetitions is left as it is. -/
theorem eraseDups_eq_self {β : Type} [DecidableEq β] {xs : List β} (h : xs.Nodup) :
    xs.eraseDups = xs := by
  induction xs with
  | nil => rfl
  | cons x xs ih =>
    obtain ⟨hx, hxs⟩ := List.nodup_cons.1 h
    have hkeep : xs.filter (fun y => !y == x) = xs := by
      refine List.filter_eq_self.2 fun y hy => ?_
      have hne : y ≠ x := by
        rintro rfl
        exact hx hy
      simpa using hne
    rw [List.eraseDups_cons, hkeep, ih hxs]

theorem LexLess.ne {d : Chirality} (h : c.LexLess d) : c ≠ d := by
  rintro rfl
  unfold LexLess at h
  omega

theorem pairwise_naturalsFromTo (lo hi : Nat) : (naturalsFromTo lo hi).Pairwise (· < ·) :=
  List.pairwise_lt_range' 1

theorem indices_of_mem_ofPair {h : Handedness} {n m : Nat} (hc : c ∈ ofPair (some h) n m) :
    c.n = n ∧ c.m = m := by
  have hasked := mem_ofPair_iff.1 hc
  cases h with
  | right =>
    obtain ⟨hranges, -⟩ := hasked
    unfold IsInRanges at hranges
    omega
  | left =>
    obtain ⟨hranges, -⟩ := hasked
    unfold IsInRanges at hranges
    omega

theorem pairwise_ofPair (h : Handedness) (n m : Nat) :
    (ofPair (some h) n m).Pairwise LexLess := by
  unfold ofPair
  cases ofIndices? n m with
  | none => exact .nil
  | some c => cases h <;> dsimp only <;> split <;> simp

/-- With a handedness the pairs of indices are taken in lexicographic order. -/
theorem pairwise_ordered (h : Handedness) (n1 n2 m1 m2 : Nat) :
    ((naturalsFromTo n1 n2).flatMap fun n =>
      (naturalsFromTo m1 m2).flatMap fun m => ofPair (some h) n m).Pairwise LexLess := by
  rw [List.pairwise_flatMap]
  refine ⟨fun n _ => ?_, ?_⟩
  · rw [List.pairwise_flatMap]
    refine ⟨fun m _ => pairwise_ofPair h n m, ?_⟩
    refine (pairwise_naturalsFromTo _ _).imp fun hmm c hc d hd => ?_
    obtain ⟨hcn, hcm⟩ := indices_of_mem_ofPair hc
    obtain ⟨hdn, hdm⟩ := indices_of_mem_ofPair hd
    exact .inr ⟨hcn.trans hdn.symm, by omega⟩
  · refine (pairwise_naturalsFromTo _ _).imp fun hnn c hc d hd => ?_
    obtain ⟨m, -, hc⟩ := List.mem_flatMap.1 hc
    obtain ⟨m', -, hd⟩ := List.mem_flatMap.1 hd
    obtain ⟨hcn, -⟩ := indices_of_mem_ofPair hc
    obtain ⟨hdn, -⟩ := indices_of_mem_ofPair hd
    exact .inl (by omega)

/-- **With a handedness a list is in lexicographic order.** -/
theorem pairwise_listing (h : Handedness) (n1 n2 m1 m2 : Nat) (types : Option (List ChiralType)) :
    (listing n1 n2 m1 m2 (some h) types).Pairwise LexLess := by
  have hordered := (pairwise_ordered h n1 n2 m1 m2).filter (isWanted types)
  have hdistinct : List.Nodup _ := hordered.imp LexLess.ne
  unfold listing
  rw [eraseDups_eq_self hdistinct]
  exact hordered

/-! ## Mirror images side by side -/

/-- A list of tubes that are their own mirror images and of tubes that their mirror images
follow. -/
inductive IsPaired : List Chirality → Prop
  | nil : IsPaired []
  | alone {c : Chirality} {cs : List Chirality} :
    c.mirror = c → IsPaired cs → IsPaired (c :: cs)
  | couple {c : Chirality} {cs : List Chirality} : IsPaired cs → IsPaired (c :: c.mirror :: cs)

/-- A tube and its mirror image. -/
def couple (c : Chirality) : List Chirality :=
  [c, c.mirror]

/-- What does not tell mirror images apart keeps both or neither. -/
theorem filter_flatMap_couple {keep : Chirality → Bool} (hkeep : ∀ c, keep c.mirror = keep c)
    (cs : List Chirality) : (cs.flatMap couple).filter keep = (cs.filter keep).flatMap couple := by
  induction cs with
  | nil => rfl
  | cons c cs ih =>
    rw [List.flatMap_cons, List.filter_append, ih]
    cases hc : keep c with
    | true => simp [couple, hkeep, hc]
    | false => simp [couple, hkeep, hc]

/-- **Leaving out repetitions never separates mirror images.** -/
theorem isPaired_eraseDups : ∀ cs : List Chirality, IsPaired (cs.flatMap couple).eraseDups
  | [] => .nil
  | c :: cs => by
    -- behind the first couple both of its members are left out
    let others (d : Chirality) : Bool := !d == c && !d == c.mirror
    have hothers (d : Chirality) : others d.mirror = others d := by
      simp only [others, mirror_beq, mirror_mirror]
      exact Bool.and_comm _ _
    have hrest : IsPaired ((cs.flatMap couple).filter others).eraseDups := by
      rw [filter_flatMap_couple hothers]
      exact isPaired_eraseDups (cs.filter others)
    rw [List.flatMap_cons, couple, List.cons_append, List.singleton_append, List.eraseDups_cons]
    by_cases hself : c.mirror = c
    · have hsame : others = fun d => !d == c := by
        funext d
        simp [others, hself]
      rw [List.filter_cons_of_neg (by simp [hself]), ← hsame]
      exact .alone hself hrest
    · have hboth : ((cs.flatMap couple).filter fun d => !d == c).filter (fun d => !d == c.mirror) =
          (cs.flatMap couple).filter others := by
        rw [List.filter_filter]
        exact List.filter_congr fun d _ => Bool.and_comm _ _
      rw [List.filter_cons_of_pos (by simpa using hself), List.eraseDups_cons, hboth]
      exact .couple hrest
termination_by cs => cs.length
decreasing_by exact Nat.lt_succ_of_le (List.length_filter_le _ _)

namespace IsPaired

variable {cs : List Chirality}

theorem mirror_mem (h : IsPaired cs) : ∀ c ∈ cs, c.mirror ∈ cs := by
  induction h with
  | nil => simp
  | alone hself _ ih =>
    refine List.forall_mem_cons.2 ⟨?_, fun d hd => List.mem_cons_of_mem _ (ih d hd)⟩
    rw [hself]
    exact List.mem_cons_self
  | couple _ ih =>
    refine List.forall_mem_cons.2 ⟨by simp, List.forall_mem_cons.2 ⟨by simp, fun d hd => ?_⟩⟩
    exact List.mem_cons_of_mem _ (List.mem_cons_of_mem _ (ih d hd))

/-- The mirror image of a tube that is not its own one is its neighbor. -/
theorem beside (h : IsPaired cs) : ∀ i c, cs[i]? = some c → c.mirror ≠ c →
    cs[i + 1]? = some c.mirror ∨ ∃ j, i = j + 1 ∧ cs[j]? = some c.mirror := by
  induction h with
  | nil => simp
  | alone hself _ ih =>
    intro i c hc hne
    cases i with
    | zero =>
      obtain rfl : _ = c := by simpa using hc
      exact absurd hself hne
    | succ i =>
      rcases ih i c (by simpa using hc) hne with hnext | ⟨j, rfl, hj⟩
      · exact .inl (by simpa using hnext)
      · exact .inr ⟨j + 1, rfl, by simpa using hj⟩
  | couple _ ih =>
    intro i c hc hne
    match i with
    | 0 =>
      obtain rfl : _ = c := by simpa using hc
      exact .inl rfl
    | 1 =>
      obtain rfl : _ = c := by simpa using hc
      exact .inr ⟨0, rfl, rfl⟩
    | i + 2 =>
      rcases ih i c (by simpa using hc) hne with hnext | ⟨j, rfl, hj⟩
      · exact .inl (by simpa using hnext)
      · exact .inr ⟨j + 2, rfl, by simpa using hj⟩

end IsPaired

theorem ofPair_none (n m : Nat) : ofPair none n m = (ofIndices? n m).toList.flatMap couple := by
  unfold ofPair
  cases ofIndices? n m with
  | none => rfl
  | some c => rfl

/-- **Without a handedness mirror images stand side by side.** -/
theorem isPaired_listing (n1 n2 m1 m2 : Nat) (types : Option (List ChiralType)) :
    IsPaired (listing n1 n2 m1 m2 none types) := by
  have hcouples : ((naturalsFromTo n1 n2).flatMap fun n =>
      (naturalsFromTo m1 m2).flatMap fun m => ofPair none n m) =
        ((naturalsFromTo n1 n2).flatMap fun n =>
          (naturalsFromTo m1 m2).flatMap fun m => (ofIndices? n m).toList).flatMap couple := by
    simp only [ofPair_none, List.flatMap_assoc]
  unfold listing
  dsimp only
  rw [hcouples, filter_flatMap_couple (isWanted_mirror types)]
  exact isPaired_eraseDups _

theorem isArranged_listing (n1 n2 m1 m2 : Nat) (handedness : Option Handedness)
    (types : Option (List ChiralType)) :
    IsArranged (listing n1 n2 m1 m2 handedness types) handedness := by
  cases handedness with
  | some h => exact pairwise_listing h n1 n2 m1 m2 types
  | none =>
    have hpaired := isPaired_listing n1 n2 m1 m2 types
    refine ⟨hpaired.mirror_mem, fun i c hc htype => ?_⟩
    exact hpaired.beside i c hc (mt mirror_eq_self_iff.1 htype)

/-- **Lists of chiralities are complete**: for all ranges, with or without a handedness and with
any types, a list has what it is asked for and nothing else, each once. With a handedness it is in
lexicographic order, and without one the mirror image of a tube that is not armchair stands directly
beside it. -/
theorem isListing_listing (n1 n2 m1 m2 : Nat) (handedness : Option Handedness)
    (types : Option (List ChiralType)) :
    IsListing n1 n2 m1 m2 handedness types (listing n1 n2 m1 m2 handedness types) where
  nodup := nodup_eraseDups _
  mem_iff _ := mem_listing_iff
  arranged := isArranged_listing n1 n2 m1 m2 handedness types

/-- The mirror image that the ranges ask for themselves is not listed again. -/
example : (listing 1 2 1 2 none none).map (fun c => (c.n, c.m)) =
    [(1, 1), (1, 2), (2, 1), (2, 2)] := by decide

end Chirality

end Honeycomb
