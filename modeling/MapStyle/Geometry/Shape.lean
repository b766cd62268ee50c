import MapStyle.Geometry.Basic

/-!
# Shapes

The geometry of map features, with positions as they are written: a longitude, a latitude and
whatever numbers follow.
-/

namespace MapStyle

universe u

/-- The geometry of a feature. -/
inductive Shape (α : Type u) where
  | point (position : List α)
  | multiPoint (positions : List (List α))
  | lineString (line : List (List α))
  | multiLineString (lines : List (List (List α)))
  | polygon (rings : List (List (List α)))
  | multiPolygon (polygons : List (List (List (List α))))
  | collection (shapes : List (Shape α))

namespace Shape

variable {α : Type u}

/-- The name of a kind of geometry. -/
def typeName : Shape α → String
  | .point _ => "Point"
  | .multiPoint _ => "MultiPoint"
  | .lineString _ => "LineString"
  | .multiLineString _ => "MultiLineString"
  | .polygon _ => "Polygon"
  | .multiPolygon _ => "MultiPolygon"
  | .collection _ => "GeometryCollection"

/-- The place of a position of two numbers at least. -/
def place? : List α → Option (Point α)
  | x :: y :: _ => some ⟨x, y⟩
  | _ => none

/-- The places of a line or ring; positions that are too short are left out. -/
def places (positions : List (List α)) : List (Point α) :=
  positions.filterMap place?

end Shape

end MapStyle
