import MapStyle.Feature
import MapStyle.Geometry.Shape
import MapStyle.Poi

/-!
# Map features

Features with geometry, as a map has them on display.
-/

namespace MapStyle

universe u

/-- A feature with its geometry and the map source that it comes from. -/
structure MapFeature (α : Type u) extends Feature where
  shape : Shape α
  source : Option String
  sourceLayer : Option String

/-- A feature with nothing but geometry. -/
def MapFeature.bare {α : Type u} (shape : Shape α) : MapFeature α :=
  { Feature.empty with shape, source := none, sourceLayer := none }

/-- The point of interest that a click on a feature saves, if it is a point with an identifier. -/
def MapFeature.poi? (f : MapFeature Float) : Option Poi :=
  match f.shape with
  | .point position => (Shape.place? position).bind (Poi.ofFeature? f.toFeature)
  | _ => none

end MapStyle
