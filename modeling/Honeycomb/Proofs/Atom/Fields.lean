import Honeycomb.Proofs.Element
import Honeycomb.Atom.Attribute

/-!
# What an attribute writes

* `Attribute.spellings` — the texts that name an attribute, and `Attribute.Takes` — the values it
  takes.
* `Field`, `Atom.field` — an atom taken apart into fields, which say all there is about it
  (`Atom.eq_of_fields`).
* `Attribute.writes` — the fields that an attribute is about, with what a value makes of them.
* `Atom.HasTableNumber` — the atomic number is the one that the table has for the element.

Principal results: `Attribute.field_assign`, every field of an atom after an attribute has been
replaced; `Atom.setAttribute_eq_ok_iff_fields`, when it is replaced and what comes out; and
`Atom.HasTableNumber.setAttribute`.
-/

set_option autoImplicit false

namespace Honeycomb

variable {α : Type}

namespace Attribute

/-- The texts that name an attribute. -/
def spellings : Attribute → List String
  | id => ["id"]
  | molecule => ["mol", "molid"]
  | type => ["type"]
  | element => ["element"]
  | charge => ["q", "charge"]
  | mass => ["mass"]
  | coordinate .x => ["x"]
  | coordinate .y => ["y"]
  | coordinate .z => ["z"]
  | speed .x => ["vx"]
  | speed .y => ["vy"]
  | speed .z => ["vz"]
  | position => ["r"]
  | velocity => ["v"]
  | neighbors => ["nn", "NN"]
  | poav .poav1 => ["poav1", "POAV1"]
  | poav .poav2 => ["poav2", "POAV2"]
  | poav .poavR => ["poavr", "POAVR"]

/-- The value has the very kind of the attribute: a count is not negative, and the result of a
pi-orbital analysis is of the slot's own flavor. -/
def Takes : Attribute → AttributeValue α → Prop
  | id, .integer n => 0 ≤ n
  | molecule, .integer n => 0 ≤ n
  | type, .integer n => 0 ≤ n
  | element, .string _ => True
  | charge, .float _ => True
  | mass, .float _ => True
  | coordinate _, .float _ => True
  | speed _, .float _ => True
  | position, .vector _ => True
  | velocity, .vector _ => True
  | neighbors, .neighbors _ => True
  | poav k, .poav p => p.kind = k
  | _, _ => False

/-- Each attribute is named by its own texts. -/
theorem ofName?_eq_some_iff {name : String} {which : Attribute} :
    ofName? name = some which ↔ name ∈ which.spellings := by
  constructor
  · intro h
    have hentries : ∀ entry ∈ names, entry.1 ∈ entry.2.spellings := by decide
    obtain ⟨before, after, heq, -⟩ := List.lookup_eq_some_iff.1 h
    apply hentries (name, which)
    rw [heq]
    simp
  · intro h
    have hspellings : ∀ which : Attribute, ∀ s ∈ which.spellings, ofName? s = some which := by
      intro which
      cases which with
      | coordinate axis => cases axis <;> decide
      | speed axis => cases axis <;> decide
      | poav kind => cases kind <;> decide
      | _ => decide
    exact hspellings which name h

end Attribute

/-! ## Fields -/

/-- The parts of an atom, as small as attributes tell them apart. -/
inductive Field where
  | id
  | molecule
  | type
  | element
  | atomicNumber
  | charge
  | mass
  | coordinate (axis : Axis)
  | speed (axis : Axis)
  | hasSurroundings
  | coordination
  | neighbors
  | hasPoav
  | poav (kind : PoavKind)
  | frameLink

/-- What a field holds. -/
inductive FieldValue (α : Type) where
  | count (n : Nat)
  | text (s : String)
  | number (a : α)
  | flag (b : Bool)
  | coordination (n : Option Nat)
  | neighbors (refs : Option (List (NeighborRef α)))
  | poav (p : Option (Poav α))
  | frameLink (link : Option (FrameLink α))

/-- What a field of an atom holds. Whether a bundle is attached is a field of its own. -/
def Atom.field (a : Atom α) : Field → FieldValue α
  | .id => .count a.id
  | .molecule => .count a.molecule
  | .type => .count a.type
  | .element => .text a.element
  | .atomicNumber => .count a.atomicNumber
  | .charge => .number a.charge
  | .mass => .number a.mass
  | .coordinate axis => .number (a.position.along axis)
  | .speed axis => .number (a.velocity.along axis)
  | .hasSurroundings => .flag a.surroundings.isSome
  | .coordination => .coordination a.coordination
  | .neighbors => .neighbors a.neighbors
  | .hasPoav => .flag a.poav.isSome
  | .poav kind => .poav (a.poavOf kind)
  | .frameLink => .frameLink a.frameLink

theorem Vec3.eq_of_along {v w : Vec3 α} (h : ∀ axis, v.along axis = w.along axis) : v = w := by
  cases v
  cases w
  have hx := h .x
  have hy := h .y
  have hz := h .z
  simp only [Vec3.along] at hx hy hz
  rw [hx, hy, hz]

theorem PoavSlots.eq_of_get {s t : PoavSlots α} (h : ∀ kind, s.get kind = t.get kind) : s = t := by
  cases s
  cases t
  have h1 := h .poav1
  have h2 := h .poav2
  have hR := h .poavR
  simp only [PoavSlots.get] at h1 h2 hR
  rw [h1, h2, hR]

theorem Atom.surroundings_eq {a b : Atom α} (hsome : a.surroundings.isSome = b.surroundings.isSome)
    (hcoordination : a.coordination = b.coordination) (hneighbors : a.neighbors = b.neighbors) :
    a.surroundings = b.surroundings := by
  revert hsome hcoordination hneighbors
  unfold Atom.coordination Atom.neighbors
  cases a.surroundings with
  | none =>
    cases b.surroundings with
    | none => simp
    | some t => simp
  | some s =>
    cases b.surroundings with
    | none => simp
    | some t =>
      intro _ hcoordination hneighbors
      cases s
      cases t
      simpa using And.intro hcoordination hneighbors

theorem Atom.poav_eq {a b : Atom α} (hsome : a.poav.isSome = b.poav.isSome)
    (hslots : ∀ kind, a.poavOf kind = b.poavOf kind) : a.poav = b.poav := by
  revert hsome hslots
  unfold Atom.poavOf
  cases a.poav with
  | none =>
    cases b.poav with
    | none => simp
    | some t => simp
  | some s =>
    cases b.poav with
    | none => simp
    | some t =>
      intro _ hslots
      rw [Option.some_inj]
      exact PoavSlots.eq_of_get hslots

/-- **An atom is what its fields hold.** -/
theorem Atom.eq_of_fields {a b : Atom α} (h : ∀ field, a.field field = b.field field) : a = b := by
  have hposition : a.position = b.position :=
    Vec3.eq_of_along fun axis => FieldValue.number.inj (h (.coordinate axis))
  have hvelocity : a.velocity = b.velocity :=
    Vec3.eq_of_along fun axis => FieldValue.number.inj (h (.speed axis))
  have hsurroundings : a.surroundings = b.surroundings :=
    Atom.surroundings_eq (FieldValue.flag.inj (h .hasSurroundings))
      (FieldValue.coordination.inj (h .coordination)) (FieldValue.neighbors.inj (h .neighbors))
  have hpoav : a.poav = b.poav :=
    Atom.poav_eq (FieldValue.flag.inj (h .hasPoav)) fun kind => FieldValue.poav.inj (h (.poav kind))
  have hid := FieldValue.count.inj (h .id)
  have hmolecule := FieldValue.count.inj (h .molecule)
  have htype := FieldValue.count.inj (h .type)
  have helement := FieldValue.text.inj (h .element)
  have hnumber := FieldValue.count.inj (h .atomicNumber)
  have hcharge := FieldValue.number.inj (h .charge)
  have hmass := FieldValue.number.inj (h .mass)
  have hlink := FieldValue.frameLink.inj (h .frameLink)
  cases a
  cases b
  simp_all

/-! ## What is written -/

/-- What an attribute with a value writes to a field; nothing where it leaves the field alone. The
atomic number goes with the element, and a bundle is attached with what goes into it. -/
def Attribute.writes : Attribute → AttributeValue α → Field → Option (FieldValue α)
  | .id, .integer n, .id => some (.count n.toNat)
  | .molecule, .integer n, .molecule => some (.count n.toNat)
  | .type, .integer n, .type => some (.count n.toNat)
  | .element, .string s, .element => some (.text s)
  | .element, .string s, .atomicNumber => some (.count (atomicNumberOf s))
  | .charge, .float q, .charge => some (.number q)
  | .mass, .float m, .mass => some (.number m)
  | .coordinate axis, .float c, .coordinate other =>
    if other = axis then some (.number c) else none
  | .speed axis, .float c, .speed other => if other = axis then some (.number c) else none
  | .position, .vector r, .coordinate axis => some (.number (r.along axis))
  | .velocity, .vector v, .speed axis => some (.number (v.along axis))
  | .neighbors, .neighbors _, .hasSurroundings => some (.flag true)
  | .neighbors, .neighbors refs, .neighbors => some (.neighbors (some refs))
  | .poav _, .poav _, .hasPoav => some (.flag true)
  | .poav kind, .poav p, .poav other => if other = kind then some (.poav (some p)) else none
  | _, _, _ => none

theorem Vec3.number_along_replace (v : Vec3 α) (axis other : Axis) (c : α) :
    FieldValue.number ((v.replace axis c).along other) =
      (if other = axis then some (FieldValue.number c) else none).getD
        (.number (v.along other)) := by
  rw [Vec3.along_replace]
  split
  case isTrue => rfl
  case isFalse => rfl

theorem Atom.coordination_withNeighbors (a : Atom α) (refs : List (NeighborRef α)) :
    (a.withNeighbors refs).coordination = a.coordination := by
  unfold Atom.withNeighbors Atom.coordination
  cases a.surroundings with
  | none => rfl
  | some data => rfl

theorem Atom.poavOf_withPoav_eq (a : Atom α) (p : Poav α) (kind : PoavKind) :
    (a.withPoav p).poavOf kind = if kind = p.kind then some p else a.poavOf kind := by
  show ((a.poav.getD {}).put p).get kind = _
  rw [PoavSlots.get_put]
  split
  case isTrue => rfl
  case isFalse =>
    unfold Atom.poavOf
    cases a.poav with
    | none => cases kind <;> rfl
    | some slots => rfl

namespace Attribute

variable {which : Attribute} {value : AttributeValue α} {a b : Atom α}

/-- **What is written is in its field, and every other field is what it was.** -/
theorem field_assign (h : which.assign? value a = some b) (field : Field) :
    b.field field = (which.writes value field).getD (a.field field) := by
  unfold assign? at h
  split at h
  case h_7 axis c =>
    cases h
    cases field with
    | coordinate other => exact a.position.number_along_replace axis other c
    | _ => rfl
  case h_8 axis c =>
    cases h
    cases field with
    | speed other => exact a.velocity.number_along_replace axis other c
    | _ => rfl
  case h_11 refs =>
    cases h
    cases field with
    | coordination => exact congrArg FieldValue.coordination (a.coordination_withNeighbors refs)
    | _ => rfl
  case h_12 kind p =>
    split at h
    case isFalse => cases h
    case isTrue hkind =>
      cases h
      cases field with
      | poav other =>
        show FieldValue.poav ((a.withPoav p).poavOf other) = _
        rw [Atom.poavOf_withPoav_eq, hkind, writes]
        split
        case isTrue => rfl
        case isFalse => rfl
      | _ => rfl
  case h_13 => cases h
  all_goals
    cases h
    cases field <;> rfl

/-- The atomic number is written with the element only, and goes with it. -/
theorem writes_element_or_not (which : Attribute) (value : AttributeValue α) :
    (∃ s, which.writes value .element = some (.text s) ∧
      which.writes value .atomicNumber = some (.count (atomicNumberOf s))) ∨
    (which.writes value .element = none ∧ which.writes value .atomicNumber = none) := by
  cases which with
  | element =>
    cases value with
    | string s => exact .inl ⟨s, rfl, rfl⟩
    | _ => exact .inr ⟨rfl, rfl⟩
  | _ => cases value <;> exact .inr ⟨rfl, rfl⟩

end Attribute

/-! ## When it is replaced -/

namespace Attribute

variable {which : Attribute} {value : AttributeValue α} {a b : Atom α}

/-- A value is taken when there is an atom with it, negative counts apart. -/
theorem takes_iff (a : Atom α) :
    which.Takes value ↔
      (∃ b, which.assign? value a = some b) ∧ ∀ n, value = .integer n → 0 ≤ n := by
  cases which <;> cases value <;> simp [Takes, assign?]

/-- **The atom with an attribute replaced is the only one with what is written in its field and
every other field as it was.** -/
theorem assign?_eq_some_iff (h : which.Takes value) :
    which.assign? value a = some b ↔
      ∀ field, b.field field = (which.writes value field).getD (a.field field) := by
  constructor
  · intro hassign field
    exact field_assign hassign field
  · intro hfields
    obtain ⟨⟨c, hc⟩, -⟩ := (takes_iff a).1 h
    rw [hc, Option.some_inj]
    apply Atom.eq_of_fields
    intro field
    rw [field_assign hc field, hfields field]

end Attribute

namespace Atom

variable {which : Attribute} {name : String} {value : AttributeValue α} {a b : Atom α}

theorem setAttribute_eq_ok_iff :
    a.setAttribute name value = .ok b ↔
      ∃ which : Attribute, name ∈ which.spellings ∧ which.Takes value ∧
        which.assign? value a = some b := by
  constructor
  · intro h
    unfold setAttribute at h
    cases hname : Attribute.ofName? name with
    | none => simp [hname] at h
    | some which =>
      cases hassign : which.assign? value a with
      | none => simp [hname, hassign] at h
      | some c =>
        have hcount : ∀ n, value = .integer n → 0 ≤ n := by
          rintro n rfl
          by_contra hn
          simp [hname, hassign, show n < 0 by omega] at h
        have hc : c = b := by
          cases value with
          | integer n =>
            have hn := hcount n rfl
            simpa [hname, hassign, show ¬n < 0 by omega] using h
          | _ => simpa [hname, hassign] using h
        have htakes := (Attribute.takes_iff a).2 ⟨⟨c, hassign⟩, hcount⟩
        exact ⟨which, Attribute.ofName?_eq_some_iff.1 hname, htakes, by rw [hassign, hc]⟩
  · rintro ⟨which, hname, htakes, hassign⟩
    have hcount := ((Attribute.takes_iff a).1 htakes).2
    unfold setAttribute
    rw [Attribute.ofName?_eq_some_iff.2 hname]
    simp only [hassign]
    cases value with
    | integer n =>
      have hn := hcount n rfl
      simp [show ¬n < 0 by omega]
    | _ => rfl

/-- **An attribute is replaced just when the name is one of its texts and it takes the value, and
then there is one atom that comes out.** -/
theorem setAttribute_eq_ok_iff_fields (hname : name ∈ which.spellings) :
    a.setAttribute name value = .ok b ↔
      which.Takes value ∧
        ∀ field, b.field field = (which.writes value field).getD (a.field field) := by
  rw [setAttribute_eq_ok_iff]
  constructor
  · rintro ⟨other, hother, htakes, hassign⟩
    have heq : some other = some which := by
      rw [← Attribute.ofName?_eq_some_iff.2 hother, Attribute.ofName?_eq_some_iff.2 hname]
    cases heq
    exact ⟨htakes, (Attribute.assign?_eq_some_iff htakes).1 hassign⟩
  · rintro ⟨htakes, hfields⟩
    exact ⟨which, hname, htakes, (Attribute.assign?_eq_some_iff htakes).2 hfields⟩

/-! ## Elements and atomic numbers -/

/-- The atomic number is that of the element in the table, zero if the table does not have it. -/
structure HasTableNumber (a : Atom α) : Prop where
  known : ∀ e ∈ Element.table, e.symbol = a.element → a.atomicNumber = e.number
  unknown : (∀ e ∈ Element.table, e.symbol ≠ a.element) → a.atomicNumber = 0

theorem hasTableNumber_iff : a.HasTableNumber ↔ a.atomicNumber = atomicNumberOf a.element := by
  have hsymbols : ∀ e ∈ Element.table, Element.ofSymbol? e.symbol = some e := by decide +kernel
  unfold atomicNumberOf
  cases hfound : Element.ofSymbol? a.element with
  | some e =>
    have hmem : e ∈ Element.table := List.mem_of_find?_eq_some hfound
    have hsymbol : e.symbol = a.element := by simpa using List.find?_some hfound
    constructor
    · intro h
      exact h.known e hmem hsymbol
    · intro h
      constructor
      · intro other hother heq
        have := hsymbols other hother
        rw [heq, hfound] at this
        cases this
        exact h
      · intro hunknown
        exact absurd hsymbol (hunknown e hmem)
  | none =>
    have hunknown : ∀ e ∈ Element.table, e.symbol ≠ a.element := by
      simpa [Element.ofSymbol?] using hfound
    constructor
    · intro h
      exact h.unknown hunknown
    · intro h
      constructor
      · intro other hother heq
        exact absurd heq (hunknown other hother)
      · intro _
        exact h

/-- The atomic number goes with the element of every atom that is built. -/
theorem hasTableNumber_build [Scalar α] (spec : AtomSpec α) : spec.build.HasTableNumber := by
  apply hasTableNumber_iff.2
  rfl

/-- **Replacing an attribute keeps the atomic number with the element.** -/
theorem HasTableNumber.setAttribute (ha : a.HasTableNumber)
    (h : a.setAttribute name value = .ok b) : b.HasTableNumber := by
  obtain ⟨which, -, -, hassign⟩ := setAttribute_eq_ok_iff.1 h
  have helement := Attribute.field_assign hassign .element
  have hnumber := Attribute.field_assign hassign .atomicNumber
  rw [hasTableNumber_iff] at ha ⊢
  rcases which.writes_element_or_not value with ⟨s, hs, hn⟩ | ⟨hs, hn⟩
  · rw [hs] at helement
    rw [hn] at hnumber
    rw [FieldValue.text.inj helement, FieldValue.count.inj hnumber]
  · rw [hs] at helement
    rw [hn] at hnumber
    rw [FieldValue.text.inj helement, FieldValue.count.inj hnumber, ha]

end Atom

end Honeycomb
