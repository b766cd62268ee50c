import MapStyle.Geometry.Basic

/-!
# Embedding doubles

Styles and settings give lengths and positions as doubles, whatever numbers a drawing is made with.
-/

namespace MapStyle

universe u

/-- Numbers into which doubles embed. -/
class OfDouble (α : Type u) where
  ofDouble : Float → α

export OfDouble (ofDouble)

instance : OfDouble Float := ⟨id⟩

/-- A point given by doubles. -/
def Point.ofDoubles {α : Type u} [OfDouble α] (p : Point Float) : Point α :=
  ⟨ofDouble p.x, ofDouble p.y⟩

end MapStyle
