import MapStyle.Geometry.Distance

/-!
# Simplification

Simplification of polylines within a tolerance. The ends stay. Of the points between them the one
farthest from the segment between the ends stays if it is farther than the tolerance, and both parts
are treated alike; otherwise all points between the ends go.
-/

namespace MapStyle.Simplify

universe u

variable {α : Type u} [Zero α] [One α] [Add α] [Sub α] [Neg α] [Mul α] [Div α] [LT α] [LE α]
  [DecidableLT α] [DecidableLE α] [BEq α] [Hypot α]

/--
The position of the point farthest from the segment from `a` to `b`, with its distance; of equally
far points the last one.
-/
def farthest (a b : Point α) (points : List (Point α)) : Nat × α :=
  points.zipIdx.foldl (fun best pi =>
    let d := pi.1.distanceToSegment a b
    if best.2 ≤ d then (pi.2, d) else best) (0, 0)

/-- Which of the points between `a` and `b` stay. -/
def inner (tolerance : α) (a : Point α) (points : List (Point α)) (b : Point α) : List (Point α) :=
  match farthest a b points with
  | (i, distance) =>
    match _h : points[i]? with
    | none => []
    | some p =>
      if tolerance < distance then
        inner tolerance a (points.take i) p ++ p :: inner tolerance p (points.drop (i + 1)) b
      else []
termination_by points.length
decreasing_by
  all_goals
    have := (List.getElem?_eq_some_iff.1 _h).1
    simp only [List.length_take, List.length_drop]
    omega

/-- The points of a polyline that stay. -/
def line (tolerance : α) (points : List (Point α)) : List (Point α) :=
  if h : 2 ≤ points.length then
    let first := points[0]
    let last := points[points.length - 1]
    first :: inner tolerance first points.tail.dropLast last ++ [last]
  else points

end MapStyle.Simplify
