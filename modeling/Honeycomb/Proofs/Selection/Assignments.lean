import Mathlib
import Honeycomb.Selection.RegionArguments
import Honeycomb.Proofs.Number.Characters
import Honeycomb.Proofs.Outcome
import Honeycomb.Proofs.Text.Words

/-!
# The texts of arguments

What the text between the parentheses of a region has to be, and what is read from it.

* `IsPlainChar` — the characters of keys and numbers, and blanks; no mark is one of them.
* `Argument.IsWrittenAs` — a number, or three numbers between brackets.
  `readArgument_eq_ok_iff` — nothing else is read as a value.
* `IsAssignment` — `key=value`, with blanks where they may stand.
* `IsWhole` — the commas of a part are inside brackets. `cutArguments_intercalate`,
  `intercalate_cutArguments` — cutting undoes joining by commas, and joining undoes cutting.
* `Arguments.IsListOf` — the arguments that a text lists.

Principal results: `Arguments.isListOf_of_read`, `Arguments.read_of_isListOf` — exactly the lists of
assignments with different keys are read, and the arguments are what they list.
-/

set_option autoImplicit false

namespace Honeycomb.Selection

section

variable {c d : Char} {a : Double} {cs w : List Char}

/-! ## Plain text -/

/-- A character of a key or of a number, or a blank. -/
def IsPlainChar (c : Char) : Prop :=
  IsNumberChar c ∨ isBlank c = true

/-- The marks between and around arguments are none of these characters. -/
theorem IsPlainChar.ne (h : IsPlainChar c) (hd : d ∈ [',', '=', '[', '(', ']', ')']) : c ≠ d := by
  rintro rfl
  simp only [List.mem_cons, List.not_mem_nil, or_false] at hd
  rcases h with h | h
  · rcases hd with rfl | rfl | rfl | rfl | rfl | rfl <;> exact h.ne (by decide) (by decide) rfl
  · rcases hd with rfl | rfl | rfl | rfl | rfl | rfl <;> exact absurd h (by decide)

theorem IsPlainChar.notMem_brackets (h : IsPlainChar c) : c ∉ ['[', '(', ']', ')'] :=
  fun hbracket => h.ne (List.mem_cons_of_mem _ (List.mem_cons_of_mem _ hbracket)) rfl

theorem IsPlainChar.ne_comma (h : IsPlainChar c) : c ≠ ',' :=
  h.ne List.mem_cons_self

theorem isPlainChar_of_isPadded (hw : ∀ c ∈ w, IsPlainChar c) (h : Text.IsPadded w cs) :
    ∀ c ∈ cs, IsPlainChar c := by
  obtain ⟨before, after, hbefore, hafter, rfl⟩ := h
  rw [List.forall_mem_append, List.forall_mem_append]
  exact ⟨fun c hc => .inr (hbefore c hc), hw, fun c hc => .inr (hafter c hc)⟩

/-! ## Values -/

/-- A number with blanks around it. -/
def IsPaddedNumber (a : Double) (cs : List Char) : Prop :=
  ∃ w, readDouble w = some a ∧ Text.IsPadded w cs

/-- **How the value of an argument is written**: as a number, or as three numbers between brackets,
with commas between them and blanks around each. -/
inductive Argument.IsWrittenAs : Argument → List Char → Prop
  | number {a : Double} {w : List Char} : readDouble w = some a → IsWrittenAs (.number a) w
  | point {p : Vec3 Double} {xs ys zs : List Char} :
    IsPaddedNumber p.x xs → IsPaddedNumber p.y ys → IsPaddedNumber p.z zs →
      IsWrittenAs (.point p) ('[' :: ([','].intercalate [xs, ys, zs] ++ [']']))

theorem readNumber_eq_ok_iff : readNumber cs = .ok a ↔ IsPaddedNumber a cs := by
  unfold readNumber
  dsimp only
  constructor
  · intro h
    split at h
    · next b hb =>
      cases h
      exact ⟨_, hb, Text.isPadded_trim cs⟩
    · cases h
  · rintro ⟨w, hw, hpadded⟩
    rw [(isWord_of_readDouble hw).trim_of_isPadded hpadded, hw]

theorem IsPaddedNumber.isPlainChar (h : IsPaddedNumber a cs) : ∀ c ∈ cs, IsPlainChar c := by
  obtain ⟨w, hw, hpadded⟩ := h
  exact isPlainChar_of_isPadded (fun c hc => .inl (isNumberChar_of_readDouble hw c hc)) hpadded

/-- Three numbers between commas are read one by one. -/
theorem mapM_readNumber_eq_ok_iff {values : List Double} :
    (Text.cut (· == ',') cs).mapM readNumber = .ok values ↔
      ∃ pieces, pieces ≠ [] ∧ cs = [','].intercalate pieces ∧
        List.Forall₂ (fun piece a => IsPaddedNumber a piece) pieces values := by
  simp only [mapM_eq_ok_iff, readNumber_eq_ok_iff]
  constructor
  · intro h
    exact ⟨_, Text.cut_ne_nil cs, (Text.intercalate_cut cs).symm, h⟩
  · rintro ⟨pieces, hne, rfl, h⟩
    have hplain : ∀ piece ∈ pieces, ∀ c ∈ piece, (c == ',') = false := by
      clear hne
      induction h with
      | nil => simp
      | cons hpiece _ ih =>
        refine List.forall_mem_cons.2 ⟨fun c hc => ?_, ih⟩
        exact beq_eq_false_iff_ne.2 (hpiece.isPlainChar c hc).ne_comma
    rwa [Text.cut_intercalate (by decide) hne hplain]

/-- What is read as a value is written as one. -/
theorem isWrittenAs_of_readArgument {a : Argument} (h : readArgument cs = .ok a) :
    a.IsWrittenAs (Text.trim cs) := by
  unfold readArgument at h
  split at h
  · next inner htrim =>
    split at h
    · next hlast =>
      obtain ⟨text, rfl⟩ := List.getLast?_eq_some_iff.1 hlast
      rw [List.dropLast_concat] at h
      obtain ⟨values, hvalues, hpoint⟩ := bind_eq_ok_iff.1 h
      obtain ⟨pieces, -, rfl, hpieces⟩ := mapM_readNumber_eq_ok_iff.1 hvalues
      split at hpoint
      · next x y z =>
        cases hpoint
        cases hpieces with | cons hx hpieces =>
        cases hpieces with | cons hy hpieces =>
        cases hpieces with | cons hz hpieces =>
        cases hpieces
        rw [htrim]
        exact .point hx hy hz
      · cases hpoint
    · cases h
  · next text htrim =>
    obtain ⟨b, hb, rfl⟩ := map_eq_ok_iff.1 h
    obtain ⟨w, hw, hpadded⟩ := readNumber_eq_ok_iff.1 hb
    rw [← Text.trim_trim, (isWord_of_readDouble hw).trim_of_isPadded hpadded]
    exact .number hw

/-- **Nothing else is read as a value.** -/
theorem readArgument_eq_ok_iff {a : Argument} :
    readArgument cs = .ok a ↔ ∃ w, a.IsWrittenAs w ∧ Text.IsPadded w cs := by
  constructor
  · exact fun h => ⟨_, isWrittenAs_of_readArgument h, Text.isPadded_trim cs⟩
  · rintro ⟨w, hw, hpadded⟩
    cases hw with
    | number hw =>
      have hword := isWord_of_readDouble hw
      unfold readArgument
      rw [hword.trim_of_isPadded hpadded]
      split
      · exact absurd rfl
          ((isNumberChar_of_readDouble hw '[' List.mem_cons_self).ne (by decide) (by decide))
      · exact map_eq_ok_iff.2
          ⟨_, readNumber_eq_ok_iff.2 ⟨w, hw, [], [], by simp, by simp, by simp⟩, rfl⟩
    | @point p xs ys zs hx hy hz =>
      have hread := mapM_readNumber_eq_ok_iff.2
        ⟨_, List.cons_ne_nil _ _, rfl, .cons hx (.cons hy (.cons hz .nil))⟩
      have hlast : ('[' :: ([','].intercalate [xs, ys, zs] ++ [']'])).getLast? = some ']' := by
        rw [← List.cons_append, List.getLast?_concat]
      have htrim := hpadded.trim_eq (by simp; decide) (by rw [hlast]; simp; decide)
      unfold readArgument
      rw [htrim]
      split
      · next inner hinner =>
        obtain rfl := (List.cons.inj hinner).2
        rw [if_pos List.getLast?_concat, List.dropLast_concat, hread]
        rfl
      · next hno => exact absurd rfl (hno _)

end

/-! ## Assignments -/

/-- **`key=value`**, with blanks around the key and around the value. -/
def IsAssignment (key : String) (a : Argument) (part : List Char) : Prop :=
  ∃ left right w, part = left ++ '=' :: right ∧ Text.IsPadded key.toList left ∧
    a.IsWrittenAs w ∧ Text.IsPadded w right

/-- A key of letters and digits. -/
def IsKey (key : String) : Prop :=
  ∀ c ∈ key.toList, c.isAlphanum = true

section

variable {key : String} {a : Argument} {part : List Char}

theorem isAssignment_of_readAssignment (h : readAssignment part = .ok (key, a)) :
    IsAssignment key a part := by
  unfold readAssignment at h
  split at h
  · cases h
  · next left right hsplit =>
    obtain ⟨hpart, -⟩ := Text.splitAtFirst_eq_some_iff.1 hsplit
    dsimp only at h
    split at h
    · next a' ha =>
      cases h
      obtain ⟨w, hw, hpadded⟩ := readArgument_eq_ok_iff.1 ha
      refine ⟨left, right, w, hpart, ?_, hw, hpadded⟩
      rw [String.toList_ofList]
      exact Text.isPadded_trim left
    · cases h

theorem IsKey.isPlainChar (h : IsKey key) : ∀ c ∈ key.toList, IsPlainChar c :=
  fun c hc => .inl (.inl (h c hc))

/-- Keys have no blanks at their ends, nor anywhere else. -/
theorem IsKey.trim_of_isPadded {left : List Char} (h : IsKey key)
    (hpadded : Text.IsPadded key.toList left) : Text.trim left = key.toList :=
  hpadded.trim_eq (fun c hc => isBlank_of_isAlphanum (h c (List.mem_of_mem_head? hc)))
    fun c hc => isBlank_of_isAlphanum (h c (List.mem_of_mem_getLast? hc))

theorem readAssignment_of_isAssignment (hkey : IsKey key) (h : IsAssignment key a part) :
    readAssignment part = .ok (key, a) := by
  obtain ⟨left, right, w, rfl, hleft, hw, hright⟩ := h
  have hmark : '=' ∉ left := fun hmem =>
    (isPlainChar_of_isPadded hkey.isPlainChar hleft '=' hmem).ne (by simp) rfl
  unfold readAssignment
  rw [Text.splitAtFirst_append_cons hmark]
  dsimp only
  rw [hkey.trim_of_isPadded hleft, readArgument_eq_ok_iff.2 ⟨w, hw, hright⟩, String.ofList_toList]

end

/-! ## Parts -/

section

variable {depth : Int} {c : Char} {cs w rest : List Char}

theorem cutArguments_ne_nil (depth : Int) (cs : List Char) : cutArguments depth cs ≠ [] := by
  cases cs with
  | nil => exact List.cons_ne_nil _ _
  | cons c cs =>
    unfold cutArguments
    split
    · exact List.cons_ne_nil _ _
    · dsimp only
      split <;> exact List.cons_ne_nil _ _

theorem cutArguments_comma : cutArguments 0 (',' :: cs) = [] :: cutArguments 0 cs := by
  rw [cutArguments, if_pos ⟨rfl, rfl⟩]

/-- Any other character belongs to the part that it stands in. -/
theorem cutArguments_cons (h : ¬(c = ',' ∧ depth = 0)) :
    cutArguments depth (c :: cs) =
      (cutArguments (if c = '[' ∨ c = '(' then depth + 1
        else if c = ']' ∨ c = ')' then depth - 1 else depth) cs).modifyHead (c :: ·) := by
  rw [cutArguments, if_neg h]
  dsimp only
  split
  · next hnil => exact absurd hnil (cutArguments_ne_nil _ _)
  · next part parts hparts =>
    rw [hparts]
    rfl

theorem intercalate_modifyHead {mark : Char} {pieces : List (List Char)} (hne : pieces ≠ []) :
    [mark].intercalate (pieces.modifyHead (w ++ ·)) = w ++ [mark].intercalate pieces := by
  obtain ⟨piece, pieces, rfl⟩ := List.exists_cons_of_ne_nil hne
  rw [List.modifyHead_cons]
  cases pieces with
  | nil => rw [List.intercalate_singleton, List.intercalate_singleton]
  | cons piece' pieces =>
    simp only [List.intercalate_cons_cons, List.append_assoc]

/-- **The parts of a text with commas between them make up the text.** -/
theorem intercalate_cutArguments (depth : Int) (cs : List Char) :
    [','].intercalate (cutArguments depth cs) = cs := by
  induction cs generalizing depth with
  | nil => rfl
  | cons c cs ih =>
    by_cases h : c = ',' ∧ depth = 0
    · obtain ⟨rfl, rfl⟩ := h
      obtain ⟨part, parts, hparts⟩ :=
        List.exists_cons_of_ne_nil (cutArguments_ne_nil 0 cs)
      rw [cutArguments_comma, hparts, List.intercalate_cons_cons, ← hparts, ih]
      rfl
    · rw [cutArguments_cons h]
      refine (intercalate_modifyHead (w := [c]) (cutArguments_ne_nil _ cs)).trans ?_
      rw [ih, List.singleton_append]

/-- Text without brackets belongs to one part if it has no comma or stands in brackets. -/
theorem cutArguments_append (h : ∀ c ∈ w, c ∉ ['[', '(', ']', ')'] ∧ ¬(c = ',' ∧ depth = 0)) :
    cutArguments depth (w ++ rest) = (cutArguments depth rest).modifyHead (w ++ ·) := by
  induction w with
  | nil => exact (congrFun List.modifyHead_id _).symm
  | cons c w ih =>
    obtain ⟨⟨hbracket, hcomma⟩, hw⟩ := List.forall_mem_cons.1 h
    simp only [List.mem_cons, List.not_mem_nil, or_false, not_or] at hbracket
    obtain ⟨hsquare, hround, hsquare', hround'⟩ := hbracket
    rw [List.cons_append, cutArguments_cons hcomma, if_neg (by simp [hsquare, hround]),
      if_neg (by simp [hsquare', hround']), ih hw, List.modifyHead_modifyHead]
    rfl

/-- **Whole parts**: no comma of the text stands outside all of its brackets, and the brackets that
it opens are closed in it, so that it belongs to one part whatever follows. -/
def IsWhole (w : List Char) : Prop :=
  ∀ rest, cutArguments 0 (w ++ rest) = (cutArguments 0 rest).modifyHead (w ++ ·)

theorem IsWhole.append {u : List Char} (hu : IsWhole u) (hw : IsWhole w) : IsWhole (u ++ w) := by
  intro rest
  rw [List.append_assoc, hu, hw, List.modifyHead_modifyHead]
  congr 1
  funext part
  exact (List.append_assoc u w part).symm

theorem isWhole_of_isPlainChar (h : ∀ c ∈ w, IsPlainChar c) : IsWhole w :=
  fun _ => cutArguments_append fun c hc => ⟨(h c hc).notMem_brackets, fun hcomma =>
    (h c hc).ne_comma hcomma.1⟩

theorem isWhole_equalSign : IsWhole ['='] :=
  fun _ => cutArguments_append (by simp)

theorem IsWhole.of_isPadded (hw : IsWhole w) (h : Text.IsPadded w cs) : IsWhole cs := by
  obtain ⟨before, after, hbefore, hafter, rfl⟩ := h
  have hblanks {gap : List Char} (hgap : ∀ c ∈ gap, isBlank c = true) : IsWhole gap :=
    isWhole_of_isPlainChar fun c hc => .inr (hgap c hc)
  exact (hblanks hbefore).append (hw.append (hblanks hafter))

theorem cutArguments_opening :
    cutArguments 0 ('[' :: cs) = (cutArguments 1 cs).modifyHead ('[' :: ·) :=
  cutArguments_cons (by simp)

theorem cutArguments_closing :
    cutArguments 1 (']' :: cs) = (cutArguments 0 cs).modifyHead (']' :: ·) :=
  cutArguments_cons (by simp)

/-- Text between brackets is whole, whatever commas it has. -/
theorem isWhole_brackets (h : ∀ c ∈ w, c ∉ ['[', '(', ']', ')']) :
    IsWhole ('[' :: (w ++ [']'])) := by
  intro rest
  rw [List.cons_append, List.append_assoc, List.singleton_append, cutArguments_opening,
    cutArguments_append fun c hc => ⟨h c hc, by simp⟩, cutArguments_closing,
    List.modifyHead_modifyHead, List.modifyHead_modifyHead]
  congr 1
  funext part
  simp

/-- **Cutting undoes joining by commas.** -/
theorem cutArguments_intercalate {parts : List (List Char)} (hne : parts ≠ [])
    (h : ∀ part ∈ parts, IsWhole part) : cutArguments 0 ([','].intercalate parts) = parts := by
  induction parts with
  | nil => exact absurd rfl hne
  | cons part parts ih =>
    obtain ⟨hpart, hparts⟩ := List.forall_mem_cons.1 h
    cases parts with
    | nil =>
      have hend := hpart []
      rw [List.append_nil] at hend
      rw [List.intercalate_singleton, hend]
      simp [cutArguments]
    | cons part' parts =>
      rw [List.intercalate_cons_cons, List.append_assoc, List.singleton_append, hpart,
        cutArguments_comma, ih (List.cons_ne_nil _ _) hparts, List.modifyHead_cons, List.append_nil]

end

section

variable {key : String} {part text : List Char}

theorem Argument.IsWrittenAs.isWhole {a : Argument} {w : List Char} (h : a.IsWrittenAs w) :
    IsWhole w := by
  cases h with
  | number hw => exact isWhole_of_isPlainChar fun c hc => .inl (isNumberChar_of_readDouble hw c hc)
  | @point p xs ys zs hx hy hz =>
    refine isWhole_brackets fun c hc => ?_
    simp only [List.intercalate_cons_cons, List.intercalate_singleton, List.mem_append,
      List.mem_singleton] at hc
    rcases hc with (hc | rfl) | (hc | rfl) | hc
    · exact (hx.isPlainChar c hc).notMem_brackets
    · decide
    · exact (hy.isPlainChar c hc).notMem_brackets
    · decide
    · exact (hz.isPlainChar c hc).notMem_brackets

/-- **Assignments are whole**, points included. -/
theorem IsAssignment.isWhole {a : Argument} (h : IsAssignment key a part) (hkey : IsKey key) :
    IsWhole part := by
  obtain ⟨left, right, w, rfl, hleft, hw, hright⟩ := h
  have hleft : IsWhole left :=
    isWhole_of_isPlainChar (isPlainChar_of_isPadded hkey.isPlainChar hleft)
  exact hleft.append (isWhole_equalSign.append (hw.isWhole.of_isPadded hright))

/-! ## Lists of assignments -/

namespace Arguments

/-- **The arguments that a text lists**: a blank text lists none, and assignments with commas
between them list each its own. -/
inductive IsListOf : Arguments → List Char → Prop
  | blank {text : List Char} : (∀ c ∈ text, isBlank c = true) → IsListOf [] text
  | assignments {args : Arguments} {parts : List (List Char)} : parts ≠ [] →
    List.Forall₂ (fun part given => IsAssignment given.1 given.2 part) parts args →
      IsListOf args ([','].intercalate parts)

variable {known args : Arguments} {parts : List (List Char)}

/-- No assignments are listed by the empty text. -/
theorem IsListOf.of_assignments
    (h : List.Forall₂ (fun part given => IsAssignment given.1 given.2 part) parts args) :
    IsListOf args ([','].intercalate parts) := by
  cases parts with
  | nil =>
    cases h
    exact .blank (by simp)
  | cons part parts => exact .assignments (List.cons_ne_nil part parts) h

theorem lookup_eq_none_iff : args.lookup key = none ↔ key ∉ args.map (·.1) := by
  rw [List.lookup_eq_none_iff]
  simp only [bne_iff_ne, List.mem_map, not_exists, not_and]
  exact forall₂_congr fun given _ => ne_comm

/-- Reading goes on as long as each part is an assignment with a key that is not known yet. -/
theorem readAfter_eq_ok_iff (hknown : (known.map (·.1)).Nodup) :
    readAfter known parts = .ok args ↔ ∃ more, args = known ++ more ∧
      List.Forall₂ (fun part given => readAssignment part = .ok given) parts more ∧
        (args.map (·.1)).Nodup := by
  induction parts generalizing known with
  | nil =>
    constructor
    · intro h
      cases h
      exact ⟨[], (List.append_nil _).symm, .nil, hknown⟩
    · rintro ⟨more, rfl, hmore, -⟩
      cases hmore
      rw [List.append_nil]
      rfl
  | cons part parts ih =>
    unfold readAfter
    cases hpart : readAssignment part with
    | error fault =>
      refine iff_of_false nofun ?_
      rintro ⟨more, -, hmore, -⟩
      cases hmore with | cons hgiven _ =>
      rw [hpart] at hgiven
      cases hgiven
    | ok given =>
      obtain ⟨key, a⟩ := given
      dsimp only
      by_cases hkey : key ∈ known.map (·.1)
      · have hsome : (known.lookup key).isSome = true := by
          rw [Option.isSome_iff_ne_none]
          exact fun hnone => lookup_eq_none_iff.1 hnone hkey
        rw [if_pos hsome]
        refine iff_of_false nofun ?_
        rintro ⟨more, rfl, hmore, hnodup⟩
        cases hmore with | cons hgiven _ =>
        cases hpart.symm.trans hgiven
        rw [List.map_append, List.map_cons] at hnodup
        exact List.disjoint_of_nodup_append hnodup hkey List.mem_cons_self
      · have hnone : ¬(known.lookup key).isSome = true := by
          rw [lookup_eq_none_iff.2 hkey]
          exact Bool.false_ne_true
        have hnodup : ((known ++ [(key, a)]).map (·.1)).Nodup := by
          rw [List.map_append, List.nodup_append_comm]
          exact List.nodup_cons.2 ⟨hkey, hknown⟩
        -- the key joins those that are known
        rw [if_neg hnone, ih hnodup]
        constructor
        · rintro ⟨more, rfl, hmore, hargs⟩
          exact ⟨(key, a) :: more, by simp, .cons hpart hmore, hargs⟩
        · rintro ⟨more, rfl, hmore, hargs⟩
          cases hmore with | cons hgiven hmore =>
          cases hpart.symm.trans hgiven
          exact ⟨_, by simp, hmore, hargs⟩

theorem nodup_nil : (([] : Arguments).map (·.1)).Nodup :=
  List.nodup_nil

/-- **What is read is a list of assignments** with different keys. -/
theorem isListOf_of_read (h : read text = .ok args) :
    IsListOf args text ∧ (args.map (·.1)).Nodup := by
  unfold read at h
  split at h
  · next hblank =>
    cases h
    exact ⟨.blank (Text.trim_eq_nil_iff.1 (List.isEmpty_iff.1 hblank)), List.nodup_nil⟩
  · obtain ⟨more, rfl, hmore, hnodup⟩ := (readAfter_eq_ok_iff nodup_nil).1 h
    refine ⟨?_, hnodup⟩
    rw [← intercalate_cutArguments 0 text]
    refine .assignments (cutArguments_ne_nil 0 text) (hmore.imp fun _ _ => ?_)
    exact isAssignment_of_readAssignment

/-- A list of assignments is not blank. -/
theorem trim_ne_nil_of_assignments (hne : parts ≠ [])
    (h : List.Forall₂ (fun part given => IsAssignment given.1 given.2 part) parts args) :
    Text.trim ([','].intercalate parts) ≠ [] := by
  rw [Ne, Text.trim_eq_nil_iff]
  intro hblank
  cases h with
  | nil => exact hne rfl
  | @cons part _ parts _ hpart _ =>
    obtain ⟨left, right, w, rfl, -⟩ := hpart
    refine absurd (hblank '=' ?_) (by decide)
    cases parts with
    | nil => simp
    | cons part' parts => simp [List.intercalate_cons_cons]

/-- Each of some assignments is read as one part. -/
theorem readAssignment_of_assignments
    (h : List.Forall₂ (fun part given => IsAssignment given.1 given.2 part) parts args)
    (hkeys : ∀ given ∈ args, IsKey given.1) :
    List.Forall₂ (fun part given => readAssignment part = .ok given) parts args ∧
      ∀ part ∈ parts, IsWhole part := by
  induction h with
  | nil => exact ⟨.nil, by simp⟩
  | cons hpart _ ih =>
    obtain ⟨hkey, hkeys⟩ := List.forall_mem_cons.1 hkeys
    obtain ⟨hread, hwhole⟩ := ih hkeys
    exact ⟨.cons (readAssignment_of_isAssignment hkey hpart) hread,
      List.forall_mem_cons.2 ⟨hpart.isWhole hkey, hwhole⟩⟩

/-- **Lists of assignments are read**, if the keys are different and made of letters and digits. -/
theorem read_of_isListOf (h : IsListOf args text) (hnodup : (args.map (·.1)).Nodup)
    (hkeys : ∀ given ∈ args, IsKey given.1) : read text = .ok args := by
  unfold read
  cases h with
  | blank hblank =>
    rw [Text.trim_eq_nil_iff.2 hblank]
    rfl
  | @assignments _ parts hne hparts =>
    obtain ⟨hread, hwhole⟩ := readAssignment_of_assignments hparts hkeys
    rw [if_neg (by simpa using trim_ne_nil_of_assignments hne hparts),
      cutArguments_intercalate hne hwhole]
    exact (readAfter_eq_ok_iff nodup_nil).2 ⟨args, rfl, hread, hnodup⟩

end Arguments

end

end Honeycomb.Selection
