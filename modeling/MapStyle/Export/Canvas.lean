import MapStyle.Geometry.Basic

/-!
# The canvas of an export

The canvas of an export: it spans the projected bounds of what is exported, and its coordinates
count from their upper left corner.
-/

namespace MapStyle

universe u

/-- A projection to the screen, and the longitudes and latitudes to draw. -/
structure Canvas (α : Type u) where
  project : Point α → Point α
  bounds : Rect α

namespace Canvas

variable {α : Type u}

/-- The projected upper left corner. -/
def topLeft (c : Canvas α) : Point α :=
  c.project ⟨c.bounds.x0, c.bounds.y1⟩

def bottomRight (c : Canvas α) : Point α :=
  c.project ⟨c.bounds.x1, c.bounds.y0⟩

def size [Sub α] [Zero α] [Neg α] [LT α] [DecidableLT α] (c : Canvas α) : Size α :=
  let diagonal := c.bottomRight.relativeTo c.topLeft
  ⟨magnitude diagonal.x, magnitude diagonal.y⟩

def place [Sub α] (c : Canvas α) (p : Point α) : Point α :=
  (c.project p).relativeTo c.topLeft

end Canvas

end MapStyle
