import MapStyle.Geometry.Basic

/-!
# The web Mercator projection

The projection of a view: a square world in pixels, of which the view shows a rectangle around its
center. Projecting to the screen and back are inverse up to the latitude at which the world ends.
-/

namespace MapStyle

universe u

/-- Numbers with the functions that the projection is made of. -/
class ElementaryFunctions (α : Type u) where
  pi : α
  /-- Two to the power of a number. -/
  exp2 : α → α
  tan : α → α
  atan : α → α
  sinh : α → α
  log : α → α

instance : ElementaryFunctions Float where
  pi := 3.141592653589793
  exp2 := Float.exp2
  tan := Float.tan
  atan := Float.atan
  sinh := Float.sinh
  log := Float.log

/-- A view of the map: what is at the center of the screen, and how large both are. -/
structure View (α : Type u) where
  center : Point α
  zoom : α
  size : Size α

namespace Mercator

variable {α : Type u} [Add α] [Sub α] [Neg α] [Mul α] [Div α] [LT α] [DecidableLT α]
  [OfScientific α] [ElementaryFunctions α]

open ElementaryFunctions

/-- The latitude at which the square world ends. -/
def maxLatitude : α := 85.05112877980659

/-- The side of the world at zoom 0, in pixels. -/
def tileSize : α := 512.0

def clamp (low high a : α) : α :=
  let a := if a < low then low else a
  if high < a then high else a

def toRadians (degrees : α) : α := degrees * (pi / 180.0)

def toDegrees (radians : α) : α := radians * (180.0 / pi)

end Mercator

namespace View

variable {α : Type u} [Add α] [Sub α] [Neg α] [Mul α] [Div α] [LT α] [DecidableLT α]
  [OfScientific α] [ElementaryFunctions α]

open ElementaryFunctions Mercator

def worldSize (v : View α) : α :=
  tileSize * exp2 v.zoom

def screenCenter (v : View α) : Point α :=
  ⟨v.size.width / 2.0, v.size.height / 2.0⟩

/-- A place in world pixels, from the north west corner. -/
def toWorld (v : View α) (place : Point α) : Point α :=
  let latitude := toRadians (clamp (-maxLatitude) maxLatitude place.y)
  let x := (place.x + 180.0) / 360.0
  let y := 0.5 - log (tan (pi / 4.0 + latitude / 2.0)) / (2.0 * pi)
  ⟨x * v.worldSize, y * v.worldSize⟩

def project (v : View α) (place : Point α) : Point α :=
  v.screenCenter.shift ((v.toWorld place).relativeTo (v.toWorld v.center))

/-- The place at a point of the screen. -/
def unproject (v : View α) (screen : Point α) : Point α :=
  let p := (v.toWorld v.center).shift (screen.relativeTo v.screenCenter)
  let y := pi * (1.0 - 2.0 * p.y / v.worldSize)
  ⟨p.x / v.worldSize * 360.0 - 180.0, toDegrees (atan (sinh y))⟩

/-- The places on the screen, as a rectangle of longitudes and latitudes. -/
def bounds (v : View α) : Rect α :=
  let northWest := v.unproject ⟨0.0, 0.0⟩
  let southEast := v.unproject ⟨v.size.width, v.size.height⟩
  ⟨northWest.x, southEast.y, southEast.x, northWest.y⟩

end View

end MapStyle
