import Honeycomb.Proofs.Atom.Fields

/-!
# Attributes that are replaced in place

* `Assignment` — changes of an atom in place, which may stop on the way and leave it as it is then.
* `Assignment.named` — the change of the attribute with a name: names are told apart by groups
  first, and within a group after the value has been taken.
* `Assignment.after` — an atom after any number of such changes, refused ones among them.

`on_named` shows that `Atom.setAttribute` is what such a change comes to. Principal result:
`named_changes_one_attribute_or_nothing`.
-/

set_option autoImplicit false

namespace Honeycomb

variable {α : Type}

/-- Changes of an atom in place, which may stop on the way and leave it as it is then. -/
abbrev Assignment (α β : Type) := ExceptT (Error α) (StateM (Atom α)) β

namespace Assignment

/-- How it ends, and the atom that it leaves. -/
def on {β : Type} (x : Assignment α β) (a : Atom α) : Except (Error α) β × Atom α :=
  Id.run (x.run.run a)

/-! ## The change -/

/-- What a value of one kind holds; one of another kind is refused. -/
def taken {β : Type} (name kind : String) (value : AttributeValue α)
    (take : AttributeValue α → Option β) : Assignment α β :=
  match take value with
  | some b => pure b
  | none => throw (.attributeKind name kind value.kind)

/-- The count that an integer is; a negative one is refused. -/
def counted (name : String) (n : Int) : Assignment α Nat :=
  if n < 0 then throw (.parameter (.negativeAttribute name n)) else pure n.toNat

/-- Stores a count. Of the names that get here, two are those of the molecule. -/
def keepCount (name : String) (n : Nat) : Assignment α Unit :=
  match name with
  | "id" => modify fun a => { a with id := n }
  | "type" => modify fun a => { a with type := n }
  | _ => modify fun a => { a with molecule := n }

/-- An attribute that is a count. -/
def count (name : String) (value : AttributeValue α) : Assignment α Unit := do
  let n ← taken name "integer" value fun | .integer n => some n | _ => none
  let i ← counted name n
  keepCount name i

/-- The element, after the atomic number that goes with it. -/
def element (name : String) (value : AttributeValue α) : Assignment α Unit := do
  let s ← taken name "string" value fun | .string s => some s | _ => none
  modify fun a => { a with atomicNumber := atomicNumberOf s }
  modify fun a => { a with element := s }

/-- An attribute that is a number. -/
def number (name : String) (value : AttributeValue α) : Assignment α Unit := do
  let c ← taken name "float" value fun | .float c => some c | _ => none
  match name with
  | "q" | "charge" => modify fun a => { a with charge := c }
  | "mass" => modify fun a => { a with mass := c }
  | "x" => modify fun a => { a with position := { a.position with x := c } }
  | "y" => modify fun a => { a with position := { a.position with y := c } }
  | "z" => modify fun a => { a with position := { a.position with z := c } }
  | "vx" => modify fun a => { a with velocity := { a.velocity with x := c } }
  | "vy" => modify fun a => { a with velocity := { a.velocity with y := c } }
  | _ => modify fun a => { a with velocity := { a.velocity with z := c } }

/-- An attribute that is a vector. -/
def vector (name : String) (value : AttributeValue α) : Assignment α Unit := do
  let v ← taken name "vector" value fun | .vector v => some v | _ => none
  if name = "r" then modify fun a => { a with position := v }
  else modify fun a => { a with velocity := v }

/-- The neighbor list. What holds it is attached first where it is missing. -/
def neighbors (name : String) (value : AttributeValue α) : Assignment α Unit := do
  let refs ← taken name "neighbor list" value fun | .neighbors refs => some refs | _ => none
  modify fun a => { a with surroundings := some (a.surroundings.getD {}) }
  modify fun a => { a with surroundings := a.surroundings.map ({ · with neighbors := some refs }) }

/-- The slot that a name stands for. -/
def slot (name : String) : PoavKind :=
  match name with
  | "poav1" | "POAV1" => .poav1
  | "poav2" | "POAV2" => .poav2
  | _ => .poavR

/-- The result of a pi-orbital analysis. What holds it is attached first where it is missing. -/
def poav (name : String) (value : AttributeValue α) : Assignment α Unit := do
  let p ← taken name (slot name).label value fun
    | .poav p => if p.kind = slot name then some p else none
    | _ => none
  modify fun a => { a with poav := some (a.poav.getD {}) }
  modify fun a => { a with poav := a.poav.map (·.put p) }

/-- Replaces the attribute with a name. -/
def named (name : String) (value : AttributeValue α) : Assignment α Unit :=
  match name with
  | "id" | "mol" | "molid" | "type" => count name value
  | "element" => element name value
  | "q" | "charge" | "mass" | "x" | "y" | "z" | "vx" | "vy" | "vz" => number name value
  | "r" | "v" => vector name value
  | "nn" | "NN" => neighbors name value
  | "poav1" | "POAV1" | "poav2" | "POAV2" | "poavr" | "POAVR" => poav name value
  | _ => throw (.unknownAttribute name)

/-- The atom after changes by name, one after another. One that is refused is followed by the
next all the same. -/
def after (calls : List (String × AttributeValue α)) (a : Atom α) : Atom α :=
  calls.foldl (fun a call => ((named call.1 call.2).on a).2) a

/-! ## What it comes to -/

/-- The atom that comes out takes the place of the one before; a refusal leaves that one. -/
def settled (a : Atom α) : Except (Error α) (Atom α) → Except (Error α) Unit × Atom α
  | .error e => (.error e, a)
  | .ok b => (.ok (), b)

variable {name : String} (value : AttributeValue α) (a : Atom α)

theorem on_count_integer (name : String) (n : Int) :
    (count name (.integer n)).on a =
      if n < 0 then (.error (.parameter (.negativeAttribute name n)), a)
      else (keepCount name n.toNat).on a := by
  show (counted name n >>= keepCount name).on a = _
  unfold counted
  split
  case isTrue => rfl
  case isFalse => rfl

theorem on_count (h : name ∈ ["id", "mol", "molid", "type"]) :
    (count name value).on a = settled a (a.setAttribute name value) := by
  simp only [List.mem_cons, List.not_mem_nil, or_false] at h
  cases value with
  | integer n =>
    rw [on_count_integer]
    by_cases hn : n < 0
    · rcases h with rfl | rfl | rfl | rfl
      all_goals
        simp only [Atom.setAttribute, hn, if_true]
        rfl
    · rcases h with rfl | rfl | rfl | rfl
      all_goals
        simp only [Atom.setAttribute, hn, if_false]
        rfl
  | _ => rcases h with rfl | rfl | rfl | rfl <;> rfl

theorem on_element :
    (element "element" value).on a = settled a (a.setAttribute "element" value) := by
  cases value with
  | _ => rfl

theorem on_number (h : name ∈ ["q", "charge", "mass", "x", "y", "z", "vx", "vy", "vz"]) :
    (number name value).on a = settled a (a.setAttribute name value) := by
  simp only [List.mem_cons, List.not_mem_nil, or_false] at h
  rcases h with rfl | rfl | rfl | rfl | rfl | rfl | rfl | rfl | rfl <;> cases value <;> rfl

theorem on_vector (h : name ∈ ["r", "v"]) :
    (vector name value).on a = settled a (a.setAttribute name value) := by
  simp only [List.mem_cons, List.not_mem_nil, or_false] at h
  rcases h with rfl | rfl <;> cases value <;> rfl

theorem on_neighbors (h : name ∈ ["nn", "NN"]) :
    (neighbors name value).on a = settled a (a.setAttribute name value) := by
  simp only [List.mem_cons, List.not_mem_nil, or_false] at h
  rcases h with rfl | rfl <;> cases value <;> rfl

theorem on_poav_poav (name : String) (p : Poav α) :
    (poav name (.poav p)).on a =
      if p.kind = slot name then (.ok (), a.withPoav p)
      else (.error (.attributeKind name (slot name).label p.kind.label), a) := by
  unfold poav taken
  by_cases h : p.kind = slot name
  · simp only [h, if_true]
    rfl
  · simp only [h, if_false]
    rfl

theorem on_poav (h : name ∈ ["poav1", "POAV1", "poav2", "POAV2", "poavr", "POAVR"]) :
    (poav name value).on a = settled a (a.setAttribute name value) := by
  simp only [List.mem_cons, List.not_mem_nil, or_false] at h
  cases value with
  | poav p =>
    have hname : Attribute.ofName? name = some (.poav (slot name)) := by
      rcases h with rfl | rfl | rfl | rfl | rfl | rfl <;> rfl
    rw [on_poav_poav]
    unfold Atom.setAttribute
    rw [hname]
    by_cases hkind : p.kind = slot name
    · simp only [Attribute.assign?, hkind, if_true]
      rfl
    · simp only [Attribute.assign?, hkind, if_false]
      rfl
  | _ => rcases h with rfl | rfl | rfl | rfl | rfl | rfl <;> rfl

/-- **A change in place comes to the atom that `Atom.setAttribute` returns.** -/
theorem on_named (name : String) :
    (named name value).on a = settled a (a.setAttribute name value) := by
  unfold named
  split
  case h_1 | h_2 | h_3 | h_4 => exact on_count value a (by decide)
  case h_5 => exact on_element value a
  case h_6 | h_7 | h_8 | h_9 | h_10 | h_11 | h_12 | h_13 | h_14 =>
    exact on_number value a (by decide)
  case h_15 | h_16 => exact on_vector value a (by decide)
  case h_17 | h_18 => exact on_neighbors value a (by decide)
  case h_19 | h_20 | h_21 | h_22 | h_23 | h_24 => exact on_poav value a (by decide)
  case h_25 =>
    have hunknown : Attribute.ofName? name = none := by
      rw [Attribute.ofName?, List.lookup_eq_none_iff]
      simp_all [Attribute.names]
    simp only [Atom.setAttribute, hunknown]
    rfl

theorem on_named_eq_ok_iff {b : Atom α} :
    (named name value).on a = (.ok (), b) ↔ a.setAttribute name value = .ok b := by
  rw [on_named]
  cases a.setAttribute name value with
  | ok c => simp [settled]
  | error e => simp [settled]

/-- **A refused change leaves the atom alone.** -/
theorem eq_of_on_named_eq_error {e : Error α} {b : Atom α}
    (h : (named name value).on a = (.error e, b)) : b = a := by
  rw [on_named] at h
  cases hset : a.setAttribute name value with
  | ok c => simp [hset, settled] at h
  | error e =>
    rw [hset] at h
    exact (Prod.mk.inj h).2.symm

theorem hasTableNumber_on_named {a : Atom α} (ha : a.HasTableNumber) :
    ((named name value).on a).2.HasTableNumber := by
  rw [on_named]
  cases hset : a.setAttribute name value with
  | ok b => exact ha.setAttribute hset
  | error e => exact ha

theorem hasTableNumber_after (calls : List (String × AttributeValue α)) {a : Atom α}
    (ha : a.HasTableNumber) : (after calls a).HasTableNumber := by
  induction calls generalizing a with
  | nil => exact ha
  | cons call calls ih => exact ih (hasTableNumber_on_named call.2 ha)

/-- **A change by name changes one attribute or nothing.** It succeeds just when the name is one of
the texts of an attribute that takes the value; a refused one leaves the atom alone; and one that
succeeds leaves the only atom whose fields are what the attribute writes to them and, where it
writes nothing, what they were. So the atomic number is that of the element in the table for every
atom that is built, after any number of changes. -/
theorem named_changes_one_attribute_or_nothing [Scalar α] :
    (∀ (a : Atom α) (name : String) (value : AttributeValue α),
      (named name value).on a = settled a (a.setAttribute name value) ∧
      ((∃ b, (named name value).on a = (.ok (), b)) ↔
        ∃ which : Attribute, name ∈ which.spellings ∧ which.Takes value) ∧
      (∀ e b, (named name value).on a = (.error e, b) → b = a) ∧
      ∀ which : Attribute, name ∈ which.spellings → which.Takes value → ∀ b,
        (named name value).on a = (.ok (), b) ↔
          ∀ field, b.field field = (which.writes value field).getD (a.field field)) ∧
    ∀ (spec : AtomSpec α) (calls : List (String × AttributeValue α)),
      (after calls spec.build).HasTableNumber := by
  refine ⟨fun a name value => ⟨on_named value a name, ?succeeds, ?refused, ?written⟩, ?built⟩
  case succeeds =>
    simp only [on_named_eq_ok_iff, Atom.setAttribute_eq_ok_iff]
    constructor
    · rintro ⟨b, which, hname, htakes, -⟩
      exact ⟨which, hname, htakes⟩
    · rintro ⟨which, hname, htakes⟩
      obtain ⟨⟨b, hassign⟩, -⟩ := (Attribute.takes_iff a).1 htakes
      exact ⟨b, which, hname, htakes, hassign⟩
  case refused =>
    intro e b h
    exact eq_of_on_named_eq_error value a h
  case written =>
    intro which hname htakes b
    rw [on_named_eq_ok_iff, Atom.setAttribute_eq_ok_iff_fields hname]
    exact and_iff_right htakes
  case built =>
    intro spec calls
    exact hasTableNumber_after calls (Atom.hasTableNumber_build spec)

end Assignment

end Honeycomb
