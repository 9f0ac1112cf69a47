import Mathlib
import Honeycomb.Proofs.File.DataReading
import Honeycomb.Proofs.Outcome

/-!
# The order of the sections of a LAMMPS data file

* `isTitle` — a line whose first character that is no blank is a letter.
* `Block` — a section as it stands in a text: a title, and lines that are no titles.
* `IsLaidOut` — a text is a comment, lines in front, and blocks; `layOut` — such a text.
* `Section.ActsOn` — a change of a draft that looks at nothing but what a section is about.
* `exists_effect_line`, `Block.exists_effect` — a line of a section, and a whole block, is refused
  wherever it stands, or changes every draft in the same way.

Principal result: `read_of_perm` — blocks in another order are read just when they were read before,
and they say the same.
-/

set_option autoImplicit false

namespace Honeycomb.LammpsData

/-! ## Blocks -/

/-- The first character of a line that is no blank is a letter. -/
def isTitle (line : List Char) : Bool :=
  (Text.trimStart line).head?.any Char.isAlpha

/-- A section as it stands in a text: a title, and the lines up to the next title. -/
structure Block where
  title : List Char
  body : List (List Char)
  isTitle_title : isTitle title = true
  isTitle_body : ∀ line ∈ body, isTitle line = false

namespace Block

/-- The lines of a section, the title first. -/
def lines (b : Block) : List (List Char) :=
  b.title :: b.body

/-- The first word of the title. What follows a hash sign is a remark. -/
def name (b : Block) : Option (List Char) :=
  (Text.words (splitRemark b.title).1).head?

/-- What the section is about. -/
def kind (b : Block) : Section :=
  .ofTitle (splitRemark b.title).1

end Block

/-- The lines of a text are a comment, lines in front of all sections, and the sections. -/
def IsLaidOut (text : String) (comment : List Char) (front : List (List Char))
    (blocks : List Block) : Prop :=
  Text.lines text.toList = comment :: (front ++ blocks.flatMap Block.lines)

/-- A text with these lines. -/
def layOut (comment : List Char) (front : List (List Char)) (blocks : List Block) : String :=
  String.ofList ((comment :: (front ++ blocks.flatMap Block.lines)).flatMap fun line =>
    (line ++ ['\r']) ++ ['\n'])

/-- The carriage return that is added is the one that is dropped. -/
theorem isLaidOut_layOut {comment : List Char} {front : List (List Char)} {blocks : List Block}
    (h : ∀ line ∈ comment :: (front ++ blocks.flatMap Block.lines), '\n' ∉ line) :
    IsLaidOut (layOut comment front blocks) comment front blocks := by
  unfold IsLaidOut layOut
  generalize comment :: (front ++ blocks.flatMap Block.lines) = ls at h
  have hreturn : ∀ line ∈ ls.map (· ++ ['\r']), '\n' ∉ line := by
    intro line hline
    obtain ⟨before, hbefore, rfl⟩ := List.mem_map.1 hline
    simpa using h before hbefore
  have hlines := Text.lines_flatMap hreturn
  rw [List.flatMap_map] at hlines
  rw [String.toList_ofList, hlines, List.map_map]
  refine List.map_id'' (fun line => ?_) ls
  simp [Text.dropReturn]

/-! ## Lines -/

theorem fst_splitRemark (line : List Char) :
    (splitRemark line).1 = Text.trim (line.takeWhile (· != '#')) := by
  have happend := List.takeWhile_append_dropWhile (p := (· != '#')) (l := line)
  unfold splitRemark Text.splitAtFirst
  cases hdrop : line.dropWhile (· != '#') with
  | nil =>
    rw [hdrop, List.append_nil] at happend
    rw [happend]
  | cons _ rest => rfl

/-- What stands before a remark begins with a letter just when the line does. -/
theorem isTitle_eq (line : List Char) :
    isTitle line = (splitRemark line).1.head?.any Char.isAlpha := by
  rw [fst_splitRemark, Text.head?_trim, isTitle]
  induction line with
  | nil => rfl
  | cons c cs ih =>
    have hblank : isBlank '#' = false := by decide
    have halpha : Char.isAlpha '#' = false := by decide
    by_cases hc : c = '#'
    · subst hc
      simp [Text.trimStart, hblank, halpha]
    · by_cases hb : isBlank c = true
      · simpa [Text.trimStart, hc, hb] using ih
      · simp [Text.trimStart, hc, hb]

namespace Draft

variable {d d' : Draft} {line : List Char}

theorem addLine_of_isTitle (h : isTitle line = true) (d : Draft) (n : Nat) :
    d.addLine n line = .ok { d with current := .ofTitle (splitRemark line).1 } := by
  rw [isTitle_eq] at h
  unfold addLine
  split
  case h_1 hsplit =>
    rw [hsplit] at h
    cases h
  case h_2 c rest remark hsplit =>
    rw [hsplit] at h ⊢
    rw [if_pos (by simpa using h)]

theorem addLine_of_plain (h : isTitle line = false) (d : Draft) (n : Nat) :
    d.addLine n line = if (splitRemark line).1 = [] then .ok d
      else d.addContent n (splitRemark line).1 (splitRemark line).2 := by
  rw [isTitle_eq] at h
  unfold addLine
  split
  case h_1 hsplit => rw [hsplit, if_pos rfl]
  case h_2 c rest remark hsplit =>
    rw [hsplit] at h ⊢
    rw [if_neg (by simpa using h), if_neg (List.cons_ne_nil c rest)]

end Draft

/-! ## What the lines of a section change -/

theorem toOption_readField {β : Type} (parse : List Char → Option β) (n : Nat)
    (fields : List (List Char)) (i : Nat) (what : String) :
    (readField parse n fields i what).toOption = fields[i]?.bind parse := by
  unfold readField
  cases fields[i]? with
  | none => rfl
  | some field =>
    cases hparse : parse field with
    | none => simp [hparse, fault, Except.toOption]
    | some b => simp [hparse, Except.toOption]

/-- The number of a line shows in its faults only. -/
theorem toOption_readAtomLine (n : Nat) (fields : List (List Char)) :
    (readAtomLine n fields).toOption = (readAtomLine 0 fields).toOption := by
  unfold readAtomLine
  split
  · rfl
  · simp only [toOption_bind, toOption_readField]

theorem toOption_readVelocity (n : Nat) (fields : List (List Char)) :
    (readVelocity n fields).toOption = (readVelocity 0 fields).toOption := by
  simp only [readVelocity, toOption_bind, toOption_readField]

theorem toOption_addLines_cons (d : Draft) (n : Nat) (line : List Char)
    (more : List (List Char)) :
    (d.addLines n (line :: more)).toOption =
      (d.addLine n line).toOption.bind fun next => (next.addLines (n + 1) more).toOption := by
  rw [Draft.addLines]
  cases d.addLine n line with
  | error e => rfl
  | ok next => rfl

theorem toOption_addLines_append (d : Draft) (n : Nat) (lines more : List (List Char)) :
    (d.addLines n (lines ++ more)).toOption =
      (d.addLines n lines).toOption.bind fun next =>
        (next.addLines (n + lines.length) more).toOption := by
  induction lines generalizing d n with
  | nil => rfl
  | cons line lines ih =>
    rw [List.cons_append, toOption_addLines_cons, toOption_addLines_cons, Option.bind_assoc]
    refine Option.bind_congr fun next _ => ?_
    rw [ih, List.length_cons, Nat.add_right_comm, Nat.add_assoc]

/-- The row of a mass, without its faults. -/
def massRow? (fields : List (List Char)) (remark : Option (List Char)) : Option (Nat × MassLine) :=
  (fields[0]?.bind readCount).bind fun type =>
    (fields[1]?.bind readDouble).map fun mass =>
      (type, ⟨mass, (remark.filter (!·.isEmpty)).map String.ofList⟩)

theorem toOption_addMass (d : Draft) (n : Nat) (fields : List (List Char))
    (remark : Option (List Char)) :
    (d.addMass n fields remark).toOption =
      (massRow? fields remark).map fun row => { d with masses := d.masses.insert row.1 row.2 } := by
  simp only [Draft.addMass, massRow?, toOption_bind, toOption_readField]
  cases fields[0]?.bind readCount with
  | none => rfl
  | some type =>
    cases fields[1]?.bind readDouble with
    | none => rfl
    | some mass => rfl

/-- A change of a draft that looks at what a section is about, and changes nothing else. -/
def Section.ActsOn : Section → (Draft → Draft) → Prop
  | .masses, u =>
    ∃ f : Std.TreeMap Nat MassLine → Std.TreeMap Nat MassLine,
      ∀ d, u d = { d with masses := f d.masses }
  | .atoms, u =>
    ∃ f : List AtomLine → List AtomLine, ∀ d, u d = { d with atomLines := f d.atomLines }
  | .velocities, u =>
    ∃ f : Std.TreeMap Nat (Vec3 Double) → Std.TreeMap Nat (Vec3 Double),
      ∀ d, u d = { d with velocities := f d.velocities }
  | .header, _ => False
  | .other, u => ∀ d, u d = d

namespace Section.ActsOn

variable {k l : Section} {u v : Draft → Draft}

theorem unchanged (hk : k ≠ .header) : k.ActsOn fun d => d := by
  cases k with
  | header => exact absurd rfl hk
  | masses | atoms | velocities => exact ⟨fun x => x, fun d => rfl⟩
  | other => intro d; rfl

theorem comp (hu : k.ActsOn u) (hv : k.ActsOn v) : k.ActsOn fun d => v (u d) := by
  cases k with
  | header => exact hu.elim
  | masses | atoms | velocities =>
    obtain ⟨f, hf⟩ := hu
    obtain ⟨g, hg⟩ := hv
    refine ⟨fun x => g (f x), fun d => ?_⟩
    exact (hg (u d)).trans (by rw [hf])
  | other =>
    intro d
    exact (hv (u d)).trans (hu d)

/-- Which section is the current one does not matter. -/
theorem withCurrent (hu : k.ActsOn u) (d : Draft) (current : Section) :
    u { d with current } = { u d with current } := by
  cases k with
  | header => exact hu.elim
  | masses | atoms | velocities =>
    obtain ⟨f, hf⟩ := hu
    rw [hf, hf]
  | other =>
    have hid : ∀ d, u d = d := hu
    rw [hid, hid]

theorem current_eq (hu : k.ActsOn u) (d : Draft) : (u d).current = d.current := by
  have hset := congrArg Draft.current (hu.withCurrent d d.current)
  exact hset

/-- Changes of different sections do not touch each other, and skipped lines touch nothing. -/
theorem comm (hu : k.ActsOn u) (hv : l.ActsOn v) (hkl : k = l → k = .other) (d : Draft) :
    v (u d) = u (v d) := by
  cases k with
  | header => exact hu.elim
  | other =>
    have hid : ∀ d, u d = d := hu
    rw [hid, hid]
  | masses | atoms | velocities =>
    obtain ⟨f, hf⟩ := hu
    cases l with
    | header => exact hv.elim
    | other =>
      have hid : ∀ d, v d = d := hv
      rw [hid, hid]
    | masses | atoms | velocities =>
      obtain ⟨g, hg⟩ := hv
      simp_all

end Section.ActsOn

/-- A line of a section is refused in every draft, or changes each in the same way. -/
theorem exists_effect_line {k : Section} (hk : k ≠ .header) {line : List Char}
    (hline : isTitle line = false) :
    ∃ u? : Option (Draft → Draft), (∀ u ∈ u?, k.ActsOn u) ∧
      ∀ (d : Draft) n, d.current = k → (d.addLine n line).toOption = u?.map fun u => u d := by
  by_cases hblank : (splitRemark line).1 = []
  · refine ⟨some fun d => d, ?_, fun d n _ => ?_⟩
    · rintro u ⟨⟩
      exact .unchanged hk
    · rw [Draft.addLine_of_plain hline, if_pos hblank]
      rfl
  have hadd : ∀ (d : Draft) n, d.addLine n line =
      d.addContent n (splitRemark line).1 (splitRemark line).2 := by
    intro d n
    rw [Draft.addLine_of_plain hline, if_neg hblank]
  generalize (splitRemark line).1 = content, (splitRemark line).2 = remark at hadd
  simp only [hadd]
  cases k with
  | header => exact absurd rfl hk
  | masses =>
    refine ⟨(massRow? (Text.words content) remark).map fun row d =>
      { d with masses := d.masses.insert row.1 row.2 }, ?_, ?_⟩
    · intro u hu
      obtain ⟨row, -, rfl⟩ := Option.map_eq_some_iff.1 hu
      exact ⟨fun masses => masses.insert row.1 row.2, fun d => rfl⟩
    · intro d n hd
      rw [Draft.addContent_masses hd, toOption_addMass, Option.map_map]
      rfl
  | atoms =>
    refine ⟨(readAtomLine 0 (Text.words content)).toOption.map fun a d =>
      { d with atomLines := a :: d.atomLines }, ?_, ?_⟩
    · intro u hu
      obtain ⟨a, -, rfl⟩ := Option.map_eq_some_iff.1 hu
      exact ⟨fun atomLines => a :: atomLines, fun d => rfl⟩
    · intro d n hd
      rw [Draft.addContent_atoms hd, toOption_map, toOption_readAtomLine, Option.map_map]
      rfl
  | velocities =>
    refine ⟨(readVelocity 0 (Text.words content)).toOption.map fun row d =>
      { d with velocities := d.velocities.insert row.1 row.2 }, ?_, ?_⟩
    · intro u hu
      obtain ⟨row, -, rfl⟩ := Option.map_eq_some_iff.1 hu
      exact ⟨fun velocities => velocities.insert row.1 row.2, fun d => rfl⟩
    · intro d n hd
      rw [Draft.addContent_velocities hd, toOption_map, toOption_readVelocity, Option.map_map]
      rfl
  | other =>
    refine ⟨some fun d => d, ?_, fun d n hd => ?_⟩
    · rintro u ⟨⟩
      exact .unchanged hk
    · rw [Draft.addContent, hd]
      rfl

/-- So do all lines of a section together. -/
theorem exists_effect_lines {k : Section} (hk : k ≠ .header) {lines : List (List Char)}
    (hlines : ∀ line ∈ lines, isTitle line = false) :
    ∃ u? : Option (Draft → Draft), (∀ u ∈ u?, k.ActsOn u) ∧
      ∀ (d : Draft) n, d.current = k → (d.addLines n lines).toOption = u?.map fun u => u d := by
  induction lines with
  | nil =>
    refine ⟨some fun d => d, ?_, fun d n _ => rfl⟩
    rintro u ⟨⟩
    exact .unchanged hk
  | cons line lines ih =>
    rw [List.forall_mem_cons] at hlines
    obtain ⟨u?, hu, hfirst⟩ := exists_effect_line hk hlines.1
    obtain ⟨v?, hv, hrest⟩ := ih hlines.2
    refine ⟨u?.bind fun u => v?.map fun v d => v (u d), ?_, fun d n hd => ?_⟩
    · intro w hw
      obtain ⟨u, hu', hw⟩ := Option.bind_eq_some_iff.1 hw
      obtain ⟨v, hv', rfl⟩ := Option.map_eq_some_iff.1 hw
      exact (hu u hu').comp (hv v hv')
    · rw [toOption_addLines_cons, hfirst d n hd]
      cases u? with
      | none => rfl
      | some u =>
        have hcurrent : (u d).current = k := ((hu u rfl).current_eq d).trans hd
        change ((u d).addLines (n + 1) lines).toOption = _
        rw [hrest (u d) (n + 1) hcurrent, Option.bind_some, Option.map_map]
        rfl

/-! ## Blocks one after another -/

theorem ofTitle_ne_header (title : List Char) : Section.ofTitle title ≠ .header := by
  unfold Section.ofTitle
  split
  · split_ifs <;> decide
  · decide

/-- **A block is refused after all lines, or it changes every draft in the same way.** -/
theorem Block.exists_effect (b : Block) :
    ∃ u? : Option (Draft → Draft), (∀ u ∈ u?, b.kind.ActsOn u) ∧
      ∀ (d : Draft) n, (d.addLines n b.lines).toOption =
        u?.map fun u => { u d with current := b.kind } := by
  obtain ⟨u?, hu, hbody⟩ := exists_effect_lines (ofTitle_ne_header _) b.isTitle_body
  refine ⟨u?, hu, fun d n => ?_⟩
  rw [Block.lines, toOption_addLines_cons, Draft.addLine_of_isTitle b.isTitle_title]
  change (Draft.addLines _ (n + 1) b.body).toOption = _
  rw [hbody _ _ rfl]
  cases u? with
  | none => rfl
  | some u => exact congrArg some ((hu u rfl).withCurrent d b.kind)

/-- What has been read, whatever section it ended in. -/
def Draft.settled (d : Draft) : Draft :=
  { d with current := .header }

/-- What a block adds to what has been read. -/
def Block.add (b : Block) (d? : Option Draft) : Option Draft :=
  d?.bind fun d => (d.addLines 0 b.lines).toOption.map Draft.settled

theorem Draft.settled_settled (d : Draft) : d.settled.settled = d.settled :=
  rfl

theorem Section.ActsOn.settled_eq {k : Section} {u : Draft → Draft} (hu : k.ActsOn u) (d : Draft) :
    (u d).settled = u d.settled :=
  (hu.withCurrent d .header).symm

theorem toOption_addLines_blocks (d : Draft) (n : Nat) (blocks : List Block) :
    (d.addLines n (blocks.flatMap Block.lines)).toOption.map Draft.settled =
      blocks.foldl (fun d? b => b.add d?) (some d.settled) := by
  induction blocks generalizing d n with
  | nil => rfl
  | cons b blocks ih =>
    obtain ⟨u?, hu, heffect⟩ := b.exists_effect
    rw [List.flatMap_cons, toOption_addLines_append, heffect, List.foldl_cons, Block.add,
      Option.bind_some, heffect]
    cases u? with
    | none => exact (List.foldl_fixed' (fun _ => rfl) blocks).symm
    | some u =>
      refine (ih { u d with current := b.kind } _).trans ?_
      congr 2
      exact ((hu u rfl).settled_eq d).trans ((hu u rfl).settled_eq d.settled).symm

/-- Blocks that are about different things can change places. -/
theorem Block.add_comm {b c : Block} (h : b.kind = c.kind → b.kind = .other)
    (d? : Option Draft) : c.add (b.add d?) = b.add (c.add d?) := by
  cases d? with
  | none => rfl
  | some d =>
    obtain ⟨u?, hu, hb⟩ := b.exists_effect
    obtain ⟨v?, hv, hc⟩ := c.exists_effect
    simp only [Block.add, Option.bind_some, hb, hc]
    cases u? with
    | none => cases v? <;> rfl
    | some u =>
      cases v? with
      | none => rfl
      | some v =>
        have hcomm := (hu u rfl).comm (hv v rfl) h d.settled
        have hvu : (v (u d).settled).settled = v (u d.settled) := by
          rw [(hv v rfl).settled_eq, Draft.settled_settled, (hu u rfl).settled_eq]
        have huv : (u (v d).settled).settled = u (v d.settled) := by
          rw [(hu u rfl).settled_eq, Draft.settled_settled, (hv v rfl).settled_eq]
        exact congrArg some (hvu.trans (hcomm.trans huv.symm))

/-! ## Texts -/

/-- The titles of the sections that say something about atoms. -/
def knownTitles : List String :=
  ["Masses", "Atoms", "Velocities"]

/-- The title of a section that says something about atoms. -/
def Section.title? : Section → Option String
  | .masses => some "Masses"
  | .atoms => some "Atoms"
  | .velocities => some "Velocities"
  | .header | .other => none

theorem Block.name_of_title? {b : Block} {title : String} (h : b.kind.title? = some title) :
    b.name = some title.toList := by
  unfold Block.kind Section.ofTitle at h
  unfold Block.name
  split at h
  case h_1 word hword =>
    rw [hword]
    split_ifs at h with hmasses hatoms hvelocities
    · obtain rfl := Option.some.inj h
      rw [hmasses]
    · obtain rfl := Option.some.inj h
      rw [hatoms]
    · obtain rfl := Option.some.inj h
      rw [hvelocities]
    · cases h
  case h_2 => cases h

/-- Blocks of one kind that is not skipped have one of the known names. -/
theorem Block.exists_name {b c : Block} (h : b.kind = c.kind) (hother : b.kind ≠ .other) :
    ∃ title ∈ knownTitles, b.name = some title.toList ∧ c.name = some title.toList := by
  obtain ⟨title, hknown, htitle⟩ : ∃ title ∈ knownTitles, b.kind.title? = some title := by
    cases hkind : b.kind with
    | header => exact absurd hkind (ofTitle_ne_header _)
    | other => exact absurd hkind hother
    | masses | atoms | velocities => simp [Section.title?, knownTitles]
  exact ⟨title, hknown, name_of_title? htitle, name_of_title? (h ▸ htitle)⟩

/-- What is read does not look at the section that the text ends in. -/
theorem toOption_read {text : String} {comment : List Char} {front : List (List Char)}
    {blocks : List Block} (h : IsLaidOut text comment front blocks) :
    (read text).toOption =
      ((({} : Draft).addLines 2 front).toOption.bind fun d =>
        blocks.foldl (fun d? b => b.add d?) (some d.settled)).bind fun d =>
          if d.isComplete then
            some ⟨d.atoms, String.ofList (Text.trim comment), d.lattice?⟩
          else none := by
  unfold read
  rw [h]
  simp only [toOption_bind, List.tail_cons, List.headD_cons, toOption_addLines_append]
  rw [Option.bind_assoc, Option.bind_assoc]
  refine Option.bind_congr fun d _ => ?_
  rw [← toOption_addLines_blocks d (2 + front.length), Option.bind_map]
  refine Option.bind_congr fun last _ => ?_
  change _ = if last.isComplete then some (StructureFile.mk last.atoms _ last.lattice?) else none
  split <;> rfl

/-- **Sections may stand in any order.** When each of the sections that say something about atoms is
there once at most, a text with the same lines in front and the same sections in another order is
read just when the text is, and it says the same. Each order is the order of some text. -/
theorem read_of_perm {text : String} {comment : List Char} {front : List (List Char)}
    {blocks blocks' : List Block} (h : IsLaidOut text comment front blocks)
    (honce : ∀ title ∈ knownTitles,
      (blocks.filter fun b => b.name = some title.toList).length ≤ 1)
    (hperm : blocks.Perm blocks') :
    (∃ text', IsLaidOut text' comment front blocks') ∧
      ∀ text', IsLaidOut text' comment front blocks' →
        ∀ file, read text = .ok file ↔ read text' = .ok file := by
  constructor
  · have hlines : (blocks.flatMap Block.lines).Perm (blocks'.flatMap Block.lines) :=
      hperm.flatMap_right _
    refine ⟨_, isLaidOut_layOut fun line hline => ?_⟩
    suffices hin : line ∈ Text.lines text.toList from Text.feed_notMem_of_mem_lines hin
    rw [h]
    simp only [List.mem_cons, List.mem_append, hlines.mem_iff]
    simpa using hline
  · intro text' h' file
    have hcomm : ∀ b ∈ blocks, ∀ c ∈ blocks, ∀ d?, c.add (b.add d?) = b.add (c.add d?) := by
      intro b hb c hc d?
      by_cases hbc : b = c
      · rw [hbc]
      refine Block.add_comm (fun hkind => ?_) d?
      by_contra hother
      obtain ⟨title, hknown, hbname, hcname⟩ := Block.exists_name hkind hother
      have hb' : b ∈ blocks.filter fun b => b.name = some title.toList := by
        simpa [hbname] using hb
      have hc' : c ∈ blocks.filter fun b => b.name = some title.toList := by
        simpa [hcname] using hc
      obtain ⟨only, honly⟩ := List.length_eq_one_iff.1
        (le_antisymm (honce title hknown) (List.length_pos_of_mem hb'))
      rw [honly, List.mem_singleton] at hb' hc'
      exact hbc (hb'.trans hc'.symm)
    have hblocks : ∀ d?, blocks.foldl (fun d? b => b.add d?) d? =
        blocks'.foldl (fun d? b => b.add d?) d? := fun d? => hperm.foldl_eq' hcomm d?
    rw [← toOption_eq_some_iff, ← toOption_eq_some_iff, toOption_read h, toOption_read h']
    simp only [hblocks]

/-- Velocities, a section that is skipped, two atoms under a title with blanks in front, and their
masses. -/
def scatteredBlocks : List Block :=
  [⟨"Velocities".toList, ["8 0 0.5 0".toList], by decide, by decide⟩,
    ⟨"Bonds".toList, ["".toList, "1 1 7 8".toList], by decide, by decide⟩,
    ⟨"  Atoms # full".toList, ["7 0 1 0 0 0 0".toList, "8 0 2 0 1.5 0 0".toList], by decide,
      by decide⟩,
    ⟨"Masses".toList, ["1 12.0107".toList, "2 2.014 # D".toList], by decide, by decide⟩]

/-- A text of these sections in the order in which they are given. -/
def scatteredText (blocks : List Block) : String :=
  layOut "two atoms".toList ["2 atoms".toList] blocks

theorem read_of_perm_reversed :
    scatteredBlocks.Perm scatteredBlocks.reverse ∧
      ∃ file, read (scatteredText scatteredBlocks) = .ok file ∧
        read (scatteredText scatteredBlocks.reverse) = .ok file ∧
          file.atoms.map (·.element) = ["C", "D"] := by
  have h : IsLaidOut (scatteredText scatteredBlocks) "two atoms".toList ["2 atoms".toList]
      scatteredBlocks := isLaidOut_layOut (by decide)
  have h' : IsLaidOut (scatteredText scatteredBlocks.reverse) "two atoms".toList
      ["2 atoms".toList] scatteredBlocks.reverse := isLaidOut_layOut (by decide)
  have hperm := (List.reverse_perm scatteredBlocks).symm
  obtain ⟨-, hsame⟩ := read_of_perm h (by decide +kernel) hperm
  have helements : (read (scatteredText scatteredBlocks)).toOption.map
      (fun file => file.atoms.map (·.element)) = some ["C", "D"] := by
    decide +kernel
  obtain ⟨file, hfile, hnames⟩ := Option.map_eq_some_iff.1 helements
  rw [toOption_eq_some_iff] at hfile
  exact ⟨hperm, file, hfile, (hsame _ h' file).1 hfile, hnames⟩

end Honeycomb.LammpsData
