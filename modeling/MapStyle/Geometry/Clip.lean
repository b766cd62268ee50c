import MapStyle.Geometry.Basic

/-!
# Clipping

Clipping to a rectangle whose boundary counts as inside. A segment is cut at the sides of the
rectangle until it is visible or hidden, a polyline falls into its visible pieces, and a ring is cut
by one side after the other. The definitions hold for any numbers: for machine numbers they say what
is drawn, or that clipping never ends, for exact numbers what clipping means.
-/

namespace MapStyle.Clip

universe u

variable {α : Type u} [Add α] [Sub α] [Mul α] [Div α] [LT α] [LE α] [DecidableLT α] [DecidableLE α]
  [BEq α]

/-- The point of the line through two points at a given `x`. -/
def crossingX (a b : Point α) (x : α) : Point α :=
  ⟨x, a.y + (b.y - a.y) * (x - a.x) / (b.x - a.x)⟩

/-- The point of the line through two points at a given `y`. -/
def crossingY (a b : Point α) (y : α) : Point α :=
  ⟨a.x + (b.x - a.x) * (y - a.y) / (b.y - a.y), y⟩

/-! Segments -/

/-- Where a number lies with respect to a range. -/
inductive Side where
  | below
  | within
  | above
deriving DecidableEq

/-- The side of a number; both ends belong to the range. -/
def side (low high a : α) : Side :=
  if a < low then .below else if high < a then .above else .within

/-- Where a point lies with respect to a rectangle. -/
structure Zone where
  x : Side
  y : Side
deriving DecidableEq

/-- The zone of a point. -/
def zone (r : Rect α) (p : Point α) : Zone :=
  ⟨side r.x0 r.x1 p.x, side r.y0 r.y1 p.y⟩

def Zone.isInside (z : Zone) : Bool :=
  z.x = .within ∧ z.y = .within

/--
Whether two zones lie beyond one side of the rectangle, so that nothing between them is inside.
-/
def Zone.sharesSide (z w : Zone) : Bool :=
  (z.x = w.x ∧ z.x ≠ .within) ∨ (z.y = w.y ∧ z.y ≠ .within)

/-- The point where the line through two points meets a side that a zone lies beyond. -/
def cutPoint (r : Rect α) (a b : Point α) (z : Zone) : Point α :=
  match z.y, z.x with
  | .above, _ => crossingY a b r.y1
  | .below, _ => crossingY a b r.y0
  | .within, .above => crossingX a b r.x1
  | .within, _ => crossingX a b r.x0

/-- What is known of a segment by the zones of its ends. -/
inductive Verdict (α : Type u) where
  | visible
  | hidden
  /-- An end lies outside; these are the ends after a cut there. -/
  | cut (a b : Point α)
deriving DecidableEq

/-- The verdict on a segment. The first end is cut before the second. -/
def verdict (r : Rect α) (a b : Point α) : Verdict α :=
  let za := zone r a
  let zb := zone r b
  if za.isInside && zb.isInside then .visible
  else if za.sharesSide zb then .hidden
  else if za.isInside then .cut a (cutPoint r a b zb)
  else .cut (cutPoint r a b za) b

/--
The ends of the visible part of a segment, or `none` for no part, if the loop ends. It ends for
exact numbers; rounding may put a cut point beyond another side again, and so on forever.
-/
def segment? (r : Rect α) (a b : Point α) : Option (Option (Point α × Point α)) :=
  match verdict r a b with
  | .visible => some (some (a, b))
  | .hidden => some none
  | .cut c d => by
    -- the loop goes on with the ends after the cut
    apply segment?
    · exact r
    · exact c
    · exact d
partial_fixpoint

/-! Polylines -/

/-- A piece from its points, the last one first; no points are no piece. -/
def finished (points : List (Point α)) : List (List (Point α)) :=
  if points.isEmpty then [] else [points.reverse]

/-- Whether a piece, its last point first, ends in a point. -/
def endsIn (points : List (Point α)) (p : Point α) : Bool :=
  match points with
  | [] => false
  | last :: _ => last == p

/--
The pieces that the visible parts of segments join to, each part with the end of its segment. The
current piece has been read, its last point first.
-/
def piecesFrom (current : List (Point α)) :
    List (Point α × Option (Point α × Point α)) → List (List (Point α))
  | [] => finished current
  | (_, none) :: rest => finished current ++ piecesFrom [] rest
  | (q, some (a, b)) :: rest =>
    let (done, growing) := if endsIn current a then ([], current) else (finished current, [a])
    if b == q then done ++ piecesFrom (b :: growing) rest
    else done ++ finished (b :: growing) ++ piecesFrom [] rest

/-- The visible pieces of a polyline, in order, if clipping each of its segments ends. -/
def line? (r : Rect α) (points : List (Point α)) : Option (List (List (Point α))) :=
  ((segments points).mapM fun s => (segment? r s.1 s.2).map (s.2, ·)).map (piecesFrom [])

/-! Rings -/

/-- A side of a rectangle: the half plane that it bounds and the crossing of a segment with it. -/
structure Edge (α : Type u) where
  contains : Point α → Bool
  crossing : Point α → Point α → Point α

/-- The four sides. -/
def edges (r : Rect α) : List (Edge α) := [
  ⟨fun p => r.x0 ≤ p.x, fun a b => crossingX a b r.x0⟩,
  ⟨fun p => p.x ≤ r.x1, fun a b => crossingX a b r.x1⟩,
  ⟨fun p => r.y0 ≤ p.y, fun a b => crossingY a b r.y0⟩,
  ⟨fun p => p.y ≤ r.y1, fun a b => crossingY a b r.y1⟩]

/--
What a step of a ring from one point to the next adds to the part on the inner side of an edge.
-/
def Edge.step (e : Edge α) (a b : Point α) : List (Point α) :=
  match e.contains a, e.contains b with
  | true, true => [b]
  | true, false => [e.crossing a b]
  | false, true => [e.crossing a b, b]
  | false, false => []

/-- The inner part of a path that continues from a point. -/
def Edge.cutFrom (e : Edge α) (a : Point α) : List (Point α) → List (Point α)
  | [] => []
  | b :: rest => e.step a b ++ e.cutFrom b rest

/-- The inner part of a ring. The ring is closed implicitly: its last point precedes the first. -/
def Edge.cut (e : Edge α) (ring : List (Point α)) : List (Point α) :=
  match ring.getLast? with
  | some last => e.cutFrom last ring
  | none => []

/-- A ring without the last point if this repeats the first. -/
def withoutClosing (ring : List (Point α)) : List (Point α) :=
  match ring with
  | first :: second :: rest =>
    if first == (second :: rest).getLast (List.cons_ne_nil second rest) then ring.dropLast else ring
  | _ => ring

/-- The points that follow a point, without those equal to the point kept before them. -/
def dropRepeats (kept : Point α) : List (Point α) → List (Point α)
  | [] => []
  | p :: rest => if p == kept then dropRepeats kept rest else p :: dropRepeats p rest

/-- The first point of every run of equal points. -/
def withoutRepeats : List (Point α) → List (Point α)
  | [] => []
  | p :: rest => p :: dropRepeats p rest

/-- A ring with its first point repeated at the end; fewer than three points are no ring. -/
def closedRing : List (Point α) → List (Point α)
  | first :: second :: third :: rest => first :: second :: third :: rest ++ [first]
  | _ => []

/-- The part of a ring inside a rectangle as a closed ring, or no points if nothing is left. -/
def ring (r : Rect α) (points : List (Point α)) : List (Point α) :=
  let cut := (edges r).foldl (fun points e => e.cut points) (withoutClosing points)
  closedRing (withoutClosing (withoutRepeats cut))

end MapStyle.Clip
