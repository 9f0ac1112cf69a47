import Honeycomb.Geometry.Axis
import Honeycomb.Neighbor.Heap
import Honeycomb.Neighbor.Norm

/-!
# Point trees

Numbered points in buckets. A bucket that grows beyond its capacity is divided across its longest
side, so that near points stand in few buckets.

* `Box` — the extent of some points; `Box.nearest`, its place nearest to another place.
* `PointTree` — buckets, and divisions of them; `PointTree.ofPoints?`, `PointTree.insert`.
* `PointTree.search` — the points closest to a place by distance. The bucket around the place is
  looked at first and then the others from the nearest on, and those that are too far are left
  out. What a heap keeps of the points and gives back settles the order of equally far ones.

Main statement: `PointTree.points_of_ofPoints?`, a tree has the points it was made of.
-/

set_option autoImplicit false

namespace Honeycomb

variable {α : Type}

/-- The extent of some points along the axes. -/
structure Box (α : Type) where
  lo : Vec3 α
  hi : Vec3 α
deriving Repr

/-- A point and its number. -/
abbrev Numbered (α : Type) := Vec3 α × Nat

/-- An indexed point and its distance from where the search started. -/
structure Hit (α : Type) where
  index : Nat
  distance : α
deriving Repr, DecidableEq

/-- A hit is at most as far as another, as numbers compare. -/
@[inline]
def Hit.isAtMost [Scalar α] (a b : Hit α) : Bool :=
  Scalar.isAtMost a.distance b.distance

/-- Points in buckets. A division keeps the extent of all its points; those on the lower side of
`middle` are on the left. -/
inductive PointTree (α : Type) where
  | bucket (box : Box α) (points : Array (Numbered α))
  | division (box : Box α) (axis : Axis) (middle : α) (left right : PointTree α)

namespace Box

/-- The extent of one point. -/
def ofPoint (p : Vec3 α) : Box α :=
  ⟨p, p⟩

variable [Scalar α]

/-- The extent with one more point. -/
def extend (box : Box α) (p : Vec3 α) : Box α :=
  ⟨box.lo.zipWith (fun l a => if a < l then a else l) p,
    box.hi.zipWith (fun h a => if h < a then a else h) p⟩

/-- The axis along which the extent is longest; none when it is a single place. -/
def longest? (box : Box α) : Option Axis :=
  let longer (best : Option Axis × α) (axis : Axis) : Option Axis × α :=
    let length := box.hi.along axis - box.lo.along axis
    if best.2 < length then (some axis, length) else best
  ([Axis.x, Axis.y, Axis.z].foldl longer (none, 0)).1

/-- Where the extent is divided along an axis. -/
def middle (box : Box α) (axis : Axis) : α :=
  box.lo.along axis + (box.hi.along axis - box.lo.along axis) / 2.0

/-- The place in the extent that is nearest to another place. -/
def nearest (box : Box α) (p : Vec3 α) : Vec3 α :=
  ⟨Scalar.clamp box.lo.x box.hi.x p.x, Scalar.clamp box.lo.y box.hi.y p.y,
    Scalar.clamp box.lo.z box.hi.z p.z⟩

/-- A place belongs to the lower side of a division. When the division has come to stand at the
lower end, what lies there does as well. -/
def isLower (box : Box α) (axis : Axis) (middle : α) (p : Vec3 α) : Bool :=
  if box.lo.along axis == middle then p.along axis ≤ middle else p.along axis < middle

end Box

namespace PointTree

/-- The extent of the points. -/
def box : PointTree α → Box α
  | bucket box _ => box
  | division box _ _ _ _ => box

/-- The points, bucket by bucket from the left. -/
def points : PointTree α → List (Numbered α)
  | bucket _ points => points.toList
  | division _ _ _ left right => left.points ++ right.points

/-- The number of buckets. -/
def bucketCount : PointTree α → Nat
  | bucket _ _ => 1
  | division _ _ _ left right => left.bucketCount + right.bucketCount

variable [Scalar α]

/-- The number of points that a bucket holds before it is divided. -/
def capacity : Nat := 16

/-- A bucket of some points. -/
def ofBucket (first : Numbered α) (rest : List (Numbered α)) : PointTree α :=
  bucket (rest.foldl (fun box p => box.extend p.1) (Box.ofPoint first.1)) (first :: rest).toArray

/-- A bucket divided in two. The points are moved from the front, and each time the last one takes
the place of the one that was moved. A bucket whose points are all in one place stays. -/
def divide (box : Box α) (points : Array (Numbered α)) : PointTree α :=
  match box.longest?, points.toList with
  | some axis, first :: rest =>
    let middle := box.middle axis
    match (first :: rest.reverse).partition fun p => box.isLower axis middle p.1 with
    | (l :: lower, u :: upper) => division box axis middle (ofBucket l lower) (ofBucket u upper)
    | _ => bucket box points
  | _, _ => bucket box points

/-- One more point. -/
def insert : PointTree α → Numbered α → PointTree α
  | bucket box points, p =>
    let box := box.extend p.1
    let points := points.push p
    if points.size ≤ capacity then bucket box points else divide box points
  | division box axis middle left right, p =>
    let box := box.extend p.1
    if box.isLower axis middle p.1 then division box axis middle (left.insert p) right
    else division box axis middle left (right.insert p)

/-- The tree of some points, inserted one by one. -/
def ofPoints? : List (Numbered α) → Option (PointTree α)
  | [] => none
  | first :: rest => some (rest.foldl insert (ofBucket first []))

/-- A tree that is still to be looked at, and its distance. -/
structure Pending (α : Type) where
  distance : α
  tree : PointTree α

/-- The nearer tree comes first. -/
def Pending.isNotNearer (a b : Pending α) : Bool :=
  Scalar.isAtMost b.distance a.distance

/-- How many of the closest points are sought, and how far they may be. -/
structure Demand (α : Type) where
  count : Nat
  limit : Option α

/-- The distance of the farthest point found, when as many are found as are sought. -/
def Demand.worst? (demand : Demand α) (found : Array (Hit α)) : Option α :=
  if found.size < demand.count then none else found[0]?.map (·.distance)

/-- Something so far away can be among the points sought. -/
def Demand.admits (demand : Demand α) (found : Array (Hit α)) (distance : α) : Bool :=
  demand.limit.all (Scalar.isAtMost distance) &&
    (demand.worst? found).all (Scalar.isAtMost distance)

/-- One more point found. It takes the place of the farthest one when there are enough. -/
def Demand.offer (demand : Demand α) (found : Array (Hit α)) (hit : Hit α) : Array (Hit α) :=
  if demand.limit.all (Scalar.isAtMost hit.distance) then
    match demand.worst? found with
    | none => Heap.push Hit.isAtMost found hit
    | some worst =>
      if Scalar.isLess hit.distance worst then
        match Heap.pop? Hit.isAtMost found with
        | some (_, rest) => Heap.push Hit.isAtMost rest hit
        | none => found
      else found
  else found

/-- The bucket around a place, and those of the trees beside the way to it that come in question
added to those still to be looked at. -/
def descend (norm : Norm α) (center : Vec3 α) (isNear : α → Bool) :
    PointTree α → Array (Pending α) → Array (Numbered α) × Array (Pending α)
  | bucket _ points, pending => (points, pending)
  | division box axis middle left right, pending =>
    let beside (tree : PointTree α) : Array (Pending α) :=
      let distance := norm.distance center (tree.box.nearest center)
      if isNear distance then Heap.push Pending.isNotNearer pending ⟨distance, tree⟩ else pending
    if box.isLower axis middle center then left.descend norm center isNear (beside right)
    else right.descend norm center isNear (beside left)

/-- What is found when the pending trees are looked at, with at most `buckets` buckets. -/
def searchPending (norm : Norm α) (center : Vec3 α) (demand : Demand α) (buckets : Nat)
    (pending : Array (Pending α)) (found : Array (Hit α)) : Array (Hit α) :=
  match buckets with
  | 0 => found
  | buckets + 1 =>
    match Heap.pop? Pending.isNotNearer pending with
    | none => found
    | some (next, pending) =>
      if (demand.worst? found).all (Scalar.isAtMost next.distance) then
        let (points, pending) := next.tree.descend norm center (demand.admits found) pending
        let found := points.foldl
          (fun found p => demand.offer found ⟨p.2, norm.distance center p.1⟩) found
        searchPending norm center demand buckets pending found
      else found

/-- The points closest to a place, by distance. -/
def search (tree : PointTree α) (norm : Norm α) (center : Vec3 α) (demand : Demand α) :
    List (Hit α) :=
  Heap.ascending Hit.isAtMost
    (searchPending norm center demand tree.bucketCount #[⟨0, tree⟩] #[])

theorem points_ofBucket (first : Numbered α) (rest : List (Numbered α)) :
    (ofBucket first rest).points = first :: rest :=
  rfl

theorem points_divide (box : Box α) (points : Array (Numbered α)) :
    (divide box points).points.Perm points.toList := by
  unfold divide
  split
  · next axis first rest _ hpoints =>
    dsimp only
    split
    · next hparts =>
      rw [List.partition_eq_filter_filter, Prod.mk.injEq] at hparts
      rw [PointTree.points, points_ofBucket, points_ofBucket, ← hparts.1, ← hparts.2, hpoints]
      exact (List.filter_append_perm _ _).trans ((List.reverse_perm rest).cons first)
    · exact List.Perm.refl _
  · exact List.Perm.refl _

/-- An insertion adds its point and keeps the others. -/
theorem points_insert (tree : PointTree α) (p : Numbered α) :
    (tree.insert p).points.Perm (p :: tree.points) := by
  induction tree with
  | bucket box points =>
    have hpush : (points.push p).toList.Perm (p :: points.toList) := by
      rw [Array.toList_push]
      exact List.perm_append_singleton p points.toList
    rw [insert]
    split
    · exact hpush
    · exact (points_divide _ _).trans hpush
  | division box axis middle left right ihl ihr =>
    rw [insert]
    split
    · exact ihl.append_right right.points
    · exact (ihr.append_left left.points).trans List.perm_middle

/-- The tree of some points has them and no others. -/
theorem points_of_ofPoints? {l : List (Numbered α)} {tree : PointTree α}
    (h : ofPoints? l = some tree) : tree.points.Perm l := by
  have hfold (rest : List (Numbered α)) (tree : PointTree α) :
      (rest.foldl insert tree).points.Perm (rest ++ tree.points) := by
    induction rest generalizing tree with
    | nil => exact List.Perm.refl _
    | cons p rest ih =>
      exact (ih _).trans (((points_insert tree p).append_left rest).trans List.perm_middle)
  cases l with
  | nil => cases h
  | cons first rest =>
    cases h
    exact (hfold rest _).trans (List.perm_append_singleton first rest)

end PointTree

end Honeycomb
