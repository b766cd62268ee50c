/-!
# Points and rectangles

Points, rectangles and sizes over any type of numbers.
-/

namespace MapStyle

universe u

/-- A point: longitude and latitude on the map, or right and down on the screen. -/
structure Point (α : Type u) where
  x : α
  y : α
deriving DecidableEq, BEq

/-- A rectangle from a lower to an upper end in both directions. -/
structure Rect (α : Type u) where
  x0 : α
  y0 : α
  x1 : α
  y1 : α

/-- A width and a height. -/
structure Size (α : Type u) where
  width : α
  height : α

variable {α : Type u}

namespace Point

/-- The point as far to the right of and below this one as another point is of the origin. -/
def shift [Add α] (p q : Point α) : Point α :=
  ⟨p.x + q.x, p.y + q.y⟩

def relativeTo [Sub α] (p origin : Point α) : Point α :=
  ⟨p.x - origin.x, p.y - origin.y⟩

end Point

/-- The segments of a polyline, each by its ends. -/
def segments (points : List (Point α)) : List (Point α × Point α) :=
  points.zip points.tail

def magnitude [Zero α] [Neg α] [LT α] [DecidableLT α] (a : α) : α :=
  if a < 0 then -a else a

end MapStyle
