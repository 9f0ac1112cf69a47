import Honeycomb.Chirality.Property

/-!
# Lists of chiralities

* `Chirality.listing` — the chiralities with indices in given ranges, of one handedness or with
  their mirror images, and of wanted types.
* `Chirality.passing` — those that satisfy conditions.
* `TubeProperty.grid` — a property for all indices up to a bound.
-/

set_option autoImplicit false

namespace Honeycomb

namespace Chirality

/-- The natural numbers from `lo` to `hi`, both included. -/
def naturalsFromTo (lo hi : Nat) : List Nat :=
  List.range' lo (hi + 1 - lo)

/-- What a pair of indices contributes to a list: nothing when both are zero or the handedness
is the other one, and the mirror image too when no handedness is asked for. -/
def ofPair (handedness : Option Handedness) (n m : Nat) : List Chirality :=
  match ofIndices? n m with
  | none => []
  | some c =>
    match handedness with
    | some .right => if n < m then [] else [c]
    | some .left => if m < n then [] else [c]
    | none => [c, c.mirror]

/-- A type is among the wanted ones; without a list all are wanted. -/
def isWanted (types : Option (List ChiralType)) (c : Chirality) : Bool :=
  match types with
  | none => true
  | some ts => ts.contains c.chiralType

/-- The chiralities with `n` from `n1` to `n2` and `m` from `m1` to `m2`, each listed where it
first appears. -/
def listing (n1 n2 m1 m2 : Nat) (handedness : Option Handedness)
    (types : Option (List ChiralType)) : List Chirality :=
  let all := (naturalsFromTo n1 n2).flatMap fun n =>
    (naturalsFromTo m1 m2).flatMap fun m => ofPair handedness n m
  (all.filter (isWanted types)).eraseDups

/-- The chiralities with `n` from `n1` to `bound` and `m` up to `bound`. -/
def listingUpTo (n1 bound : Nat) (handedness : Option Handedness)
    (types : Option (List ChiralType)) : List Chirality :=
  listing n1 bound 0 bound handedness types

/-- The chiralities that satisfy all conditions. -/
def passing {α : Type} [Scalar α] (filters : List (PropertyFilter α)) (bond : α)
    (cs : List Chirality) : List Chirality :=
  cs.filter fun c => filters.all fun f => f.accepts c bond

end Chirality

/-- The values of a property for all indices up to a bound, by `n` and then by `m`; there is
none where both are zero. -/
def TubeProperty.grid {α : Type} [Scalar α] (p : TubeProperty) (bound : Nat) (bond : α) :
    List (List (Option α)) :=
  (List.range (bound + 1)).map fun n =>
    (List.range (bound + 1)).map fun m =>
      (Chirality.ofIndices? n m).map fun c => p.value c bond

end Honeycomb
