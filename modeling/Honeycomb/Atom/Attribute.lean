import Honeycomb.Atom.Basic
import Honeycomb.Geometry.Axis

/-!
# Attributes by name

* `Attribute` — the attributes of an atom that have a name; `Attribute.ofName?` reads one.
* `AttributeValue` — a value of any kind an attribute can have.
* `Attribute.assign?` — the atom with one attribute replaced, when the value has its kind.
* `Atom.setAttribute` — the same by name; a value is never converted to another kind.
-/

set_option autoImplicit false

namespace Honeycomb

/-- An attribute of an atom. -/
inductive Attribute where
  | id
  | molecule
  | type
  | element
  | charge
  | mass
  | coordinate (axis : Axis)
  | speed (axis : Axis)
  | position
  | velocity
  | neighbors
  | poav (kind : PoavKind)
deriving Repr, DecidableEq

/-- A value for an attribute. -/
inductive AttributeValue (α : Type) where
  | integer (n : Int)
  | float (a : α)
  | string (s : String)
  | vector (v : Vec3 α)
  | neighbors (refs : List (NeighborRef α))
  | poav (p : Poav α)
deriving Repr

/-- What kind of value it is, as messages say it. -/
def AttributeValue.kind {α : Type} : AttributeValue α → String
  | integer _ => "integer"
  | float _ => "float"
  | string _ => "string"
  | vector _ => "vector"
  | neighbors _ => "neighbor list"
  | poav p => p.kind.label

namespace Attribute

/-- The names of the attributes; some have two. -/
def names : List (String × Attribute) :=
  [("id", .id), ("mol", .molecule), ("molid", .molecule), ("type", .type),
    ("element", .element), ("q", .charge), ("charge", .charge), ("mass", .mass),
    ("x", .coordinate .x), ("y", .coordinate .y), ("z", .coordinate .z),
    ("vx", .speed .x), ("vy", .speed .y), ("vz", .speed .z), ("r", .position),
    ("v", .velocity), ("nn", .neighbors), ("NN", .neighbors), ("poav1", .poav .poav1),
    ("POAV1", .poav .poav1), ("poav2", .poav .poav2), ("POAV2", .poav .poav2),
    ("poavr", .poav .poavR), ("POAVR", .poav .poavR)]

/-- The attribute with a name. -/
def ofName? (name : String) : Option Attribute :=
  names.lookup name

/-- The kind of value the attribute takes, as messages say it. -/
def kind : Attribute → String
  | id | molecule | type => "integer"
  | element => "string"
  | charge | mass | coordinate _ | speed _ => "float"
  | position | velocity => "vector"
  | neighbors => "neighbor list"
  | poav k => k.label

variable {α : Type}

/-- The atom with the attribute replaced; none when the value is of another kind. A negative
integer stands for zero here; `Atom.setAttribute` refuses it. -/
def assign? (which : Attribute) (value : AttributeValue α) (a : Atom α) : Option (Atom α) :=
  match which, value with
  | id, .integer n => some { a with id := n.toNat }
  | molecule, .integer n => some { a with molecule := n.toNat }
  | type, .integer n => some { a with type := n.toNat }
  | element, .string s => some { a with element := s, atomicNumber := atomicNumberOf s }
  | charge, .float q => some { a with charge := q }
  | mass, .float m => some { a with mass := m }
  | coordinate axis, .float c => some { a with position := a.position.replace axis c }
  | speed axis, .float c => some { a with velocity := a.velocity.replace axis c }
  | position, .vector r => some { a with position := r }
  | velocity, .vector v => some { a with velocity := v }
  | neighbors, .neighbors refs => some (a.withNeighbors refs)
  | poav k, .poav p => if p.kind = k then some (a.withPoav p) else none
  | _, _ => none

end Attribute

/-- Replaces the attribute with a name. A value of another kind and a negative integer are
refused. -/
def Atom.setAttribute {α : Type} (a : Atom α) (name : String) (value : AttributeValue α) :
    Except (Error α) (Atom α) :=
  match Attribute.ofName? name with
  | none => .error (.unknownAttribute name)
  | some which =>
    match which.assign? value a with
    | none => .error (.attributeKind name which.kind value.kind)
    | some b =>
      match value with
      | .integer n => if n < 0 then .error (.parameter (.negativeAttribute name n)) else .ok b
      | _ => .ok b

end Honeycomb
