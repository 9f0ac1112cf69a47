import Honeycomb.Neighbor.Least
import Honeycomb.Neighbor.Tree

/-!
# Neighbor search

* `SpatialIndex` — the points of a collection at one moment, the norm to measure with, and the
  revision of the collection it was built from.
* `SpatialIndex.ofPoints?` — an index over finite points; there is none over no points.
* `neighborRow` — what remains of the points closest to an indexed point when the point itself is
  left out.
* `SpatialIndex.rowsIn` — the neighbors of each indexed point, with an order of the points that
  decides among equally far ones: the order of their numbers in `SpatialIndex.closest`, and the
  order in which a search finds them in `SpatialIndex.query`.
* `SpatialIndex.foundFirst` — points with those in front that a search has found.
* `SpatialIndex.within` — all points within a radius of a place, the surface included; by
  `within_perm` none is left out. `SpatialIndex.reach` — the test whether a place is within a
  radius of one of several places.
-/

set_option autoImplicit false

namespace Honeycomb

/-- Counts the states that collections go through. -/
abbrev Revision := Nat

/-- The points of a collection at one moment. -/
structure SpatialIndex (α : Type) where
  points : List (Vec3 α)
  norm : Norm α
  revision : Revision
deriving Repr

/-- A distance is below a cutoff. Without a cutoff every finite distance is. -/
@[inline]
def isBelow {α : Type} [Scalar α] (cutoff : Option α) (distance : α) : Bool :=
  match cutoff with
  | none => Scalar.isFinite distance
  | some c => Scalar.isLess distance c

/-- The at most `n` neighbors of point `i` among the `n + 1` points closest to it. Points in the
same place can have pushed it out of `near`; then the last of them is one too many. -/
def neighborRow {α : Type} (n : Nat) (i : Nat) (near : List (Hit α)) : List (Hit α) :=
  if near.any (·.index == i) then near.eraseP (·.index == i) else near.take n

namespace SpatialIndex

variable {α : Type} [Scalar α]

/-- The index over a list of points; a point that is not finite is refused. -/
def ofPoints? (points : List (Vec3 α)) (norm : Norm α) (revision : Revision) :
    Except (Error α) (Option (SpatialIndex α)) :=
  match points.findIdx? (!·.isFinite) with
  | some i => .error (.nonFiniteAtom i)
  | none => if points.isEmpty then .ok none else .ok (some ⟨points, norm, revision⟩)

/-- The number of points. -/
def size (index : SpatialIndex α) : Nat :=
  index.points.length

/-- A short text about an index. -/
def text (index : SpatialIndex Double) : String :=
  "SpatialIndex \x7b points: " ++ toString index.size ++ ", norm: " ++ index.norm.text ++
    ", revision: " ++ toString index.revision ++ " \x7d"

/-- A numbered point as a hit when its distance from a place passes a test. -/
@[inline]
def hit? (norm : Norm α) (keeps : α → Bool) (center : Vec3 α) (p : Numbered α) : Option (Hit α) :=
  let distance := norm.distance center p.1
  if keeps distance then some ⟨p.2, distance⟩ else none

/-- One hit is at most as far as another. -/
@[inline]
def isCloser (a b : Hit α) : Bool :=
  Scalar.before a.distance b.distance

/-- Hits by distance; equally far ones keep their order. -/
@[specialize]
def byDistance (hits : List (Hit α)) : List (Hit α) :=
  hits.mergeSort isCloser

/-- The closest hits are the first ones by distance. -/
theorem least_eq_take_byDistance (k : Nat) (f : Numbered α → Option (Hit α))
    (numbered : List (Numbered α)) :
    least isCloser k f numbered = (byDistance (numbered.filterMap f)).take k :=
  least_eq_take_mergeSort
    (fun a b c => Scalar.before_trans a.distance b.distance c.distance)
    (fun a b => Scalar.before_total a.distance b.distance) k f numbered

/-- Numbered points with those in front that a search has found among `size` points, as it has
found them. -/
def foundFirst (size : Nat) (found : List (Hit α)) (numbered : List (Numbered α)) :
    List (Numbered α) :=
  let places := found.zipIdx.foldl
    (fun places (hit, place) => places.setIfInBounds hit.index place) (Array.replicate size size)
  let place (p : Numbered α) : Nat := places.getD p.2 size
  let parts := numbered.partition fun p => place p < size
  (parts.1.mergeSort fun p q => place p ≤ place q) ++ parts.2

omit [Scalar α] in
/-- No point is lost or made. -/
theorem foundFirst_perm (size : Nat) (found : List (Hit α)) (numbered : List (Numbered α)) :
    (foundFirst size found numbered).Perm numbered := by
  rw [foundFirst, List.partition_eq_filter_filter]
  exact ((List.mergeSort_perm _ _).append_right _).trans (List.filter_append_perm _ _)

/-- For each point the at most `n` closest other points below the cutoff, by distance. Of equally
far ones those come first that come first when the points are put into an order. -/
@[specialize]
def rowsIn (index : SpatialIndex α) (order : Vec3 α → List (Numbered α) → List (Numbered α))
    (n : Nat) (cutoff : Option α) : List (List (Hit α)) :=
  let numbered := index.points.zipIdx
  numbered.map fun (p, i) =>
    if n = 0 then []
    else neighborRow n i
      (least isCloser (n + 1) (hit? index.norm (isBelow cutoff) p) (order p numbered))

/-- For each point the at most `n` closest other points below the cutoff, by distance and then by
index. -/
@[specialize]
def closest (index : SpatialIndex α) (n : Nat) (cutoff : Option α) : List (List (Hit α)) :=
  index.rowsIn (fun _ numbered => numbered) n cutoff

/-- For each point the at most `n` closest other points below the cutoff, by distance. Of equally
far ones those come first that a search for the closest points finds first. -/
@[specialize]
def query (index : SpatialIndex α) (n : Nat) (cutoff : Option α) : List (List (Hit α)) :=
  match PointTree.ofPoints? index.points.zipIdx with
  | none => []
  | some tree =>
    let demand : PointTree.Demand α := ⟨min (n + 1) index.size, none⟩
    index.rowsIn (fun p => foundFirst index.size (tree.search index.norm p demand)) n cutoff

/-- A radius that is a little larger than the one asked for. -/
def widened (radius : α) : α :=
  radius * (1 + 1e-9) + 1e-12

/-- What a search for all points within a radius finds. It looks a little farther than asked. -/
def searchWithin (index : SpatialIndex α) (center : Vec3 α) (radius : α) : List (Hit α) :=
  match PointTree.ofPoints? index.points.zipIdx with
  | none => []
  | some tree => tree.search index.norm center ⟨index.size, some (widened radius)⟩

/-- All points at most `radius` away from a place, by distance. Equally far ones come in the order
in which a search finds them. -/
def within (index : SpatialIndex α) (center : Vec3 α) (radius : α) :
    Except (Error α) (List (Hit α)) :=
  if radius < 0 then .ok []
  else if center.isFinite then
    let numbered := foundFirst index.size (index.searchWithin center radius) index.points.zipIdx
    .ok (byDistance
      (numbered.filterMap (hit? index.norm (fun d => Scalar.isAtMost d radius) center)))
  else .error .nonFiniteCenter

/-- The points within a radius are chosen among all. -/
theorem within_perm {index : SpatialIndex α} {center : Vec3 α} {radius : α} {hits : List (Hit α)}
    (h : index.within center radius = .ok hits) (hradius : ¬radius < 0) :
    hits.Perm (index.points.zipIdx.filterMap
      (hit? index.norm (fun d => Scalar.isAtMost d radius) center)) := by
  unfold within at h
  rw [if_neg hradius] at h
  split at h
  · cases h
    exact (List.mergeSort_perm _ _).trans ((foundFirst_perm _ _ _).filterMap _)
  · cases h

/-- A place is at most `radius` away from one of the centers. -/
@[specialize]
def isAround (norm : Norm α) (centers : List (Vec3 α)) (radius : α) (p : Vec3 α) : Bool :=
  centers.any fun center => Scalar.isAtMost (norm.distance center p) radius

theorem isAround_iff {norm : Norm α} {centers : List (Vec3 α)} {radius : α} {p : Vec3 α} :
    isAround norm centers radius p = true ↔
      ∃ center ∈ centers, norm.distance center p ≤ radius := by
  simp [isAround]

/-- The test whether a place is at most `radius` away from one of the centers. -/
@[specialize]
def reach (index : SpatialIndex α) (centers : List (Vec3 α)) (radius : α) :
    Except (Error α) (Vec3 α → Bool) :=
  if radius < 0 then .ok fun _ => false
  else if centers.all Vec3.isFinite then .ok (isAround index.norm centers radius)
  else .error .nonFiniteCenter

end SpatialIndex

/-- The number of neighbors in a row that are below a cutoff. -/
def countBelow {α : Type} [Scalar α] (cutoff : Option α) (row : List (Hit α)) : Nat :=
  row.countP fun hit => isBelow cutoff hit.distance

end Honeycomb
