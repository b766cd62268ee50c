import MapStyle.Decimal.Root
import MapStyle.Geometry.Basic

/-!
# Distances

Distances in the plane: between two points, and from a point to a segment.
-/

namespace MapStyle

universe u

/-- Numbers with a length for the diagonal of a rectangle, `√(a² + b²)`. -/
class Hypot (α : Type u) where
  hypot : α → α → α

export Hypot (hypot)

instance : Hypot Float := ⟨Decimal.hypotenuse⟩

namespace Point

variable {α : Type u} [Zero α] [One α] [Add α] [Sub α] [Neg α] [Mul α] [Div α] [LT α] [LE α]
  [DecidableLT α] [DecidableLE α] [BEq α] [Hypot α]

/-- The distance between two points. -/
def distance (p q : Point α) : α :=
  hypot (p.x - q.x) (p.y - q.y)

/--
The distance of a point from the segment from `a` to `b`: from an end if the foot of the
perpendicular lies beyond it, and else the length of the perpendicular.
-/
def distanceToSegment (p a b : Point α) : α :=
  if a == b then p.distance a
  else
    let dx := b.x - a.x
    let dy := b.y - a.y
    let square := dx * dx + dy * dy
    let foot := ((p.x - a.x) * dx + (p.y - a.y) * dy) / square
    if foot ≤ 0 then p.distance a
    else if 1 ≤ foot then p.distance b
    else magnitude (((a.y - p.y) * dx - (a.x - p.x) * dy) / square) * hypot dx dy

end Point

end MapStyle
