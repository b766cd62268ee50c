import MapStyle.Definition
import MapStyle.MapFeature

/-!
# The start of a session

What a session starts with where nothing else is given: a style, and a handful of features around
the center of the view.
-/

namespace MapStyle.Sample

/-- A rule that fills the features with a key and value. -/
def fillRule (id : String) (filter : Filter) (red green blue : UInt8) : Rule :=
  (Rule.plain id filter).withFill ⟨.ofRgb8 red green blue⟩

/-- A rule that draws features with a thin solid line. -/
def lineRule (id : String) (filter : Filter) (red green blue : UInt8) : Rule :=
  (Rule.plain id filter).withLine ⟨2.0, .ofRgb8 red green blue, false⟩

def style : Definition where
  revision := ⟨"style-default"⟩
  rules := [
    fillRule "default-park-color" (.keyValue "leisure" "park") 0x00 0xff 0x00,
    fillRule "default-beach-color" (.keyValue "natural" "beach") 0xff 0xff 0x00,
    fillRule "default-water-color" (.keyValue "natural" "water") 0x00 0x00 0xff,
    fillRule "default-building-rule" (.keyPresence "building") 0x99 0x99 0x99,
    lineRule "default-highway-rule" (.keyPresence "highway") 0x44 0x44 0x44,
    lineRule "default-coastline-rule" (.keyValue "natural" "coastline") 0x11 0x11 0x11]
  pois := []

/-- Positions at offsets in degrees from a center. -/
def around (center : Point Float) (offsets : List (Float × Float)) : List (List Float) :=
  offsets.map fun (dx, dy) => [center.x + dx, center.y + dy]

/-- A closed ring of positions at offsets from a center. -/
def ring (center : Point Float) (offsets : List (Float × Float)) : List (List Float) :=
  let positions := around center offsets
  positions ++ positions.head?.toList

def feature (id : Int64) (properties : List (String × String)) (shape : Shape Float) :
    MapFeature Float :=
  { MapFeature.bare shape with
    id := some id
    properties := .ofList (properties.map fun p => (p.1, .text p.2)) }

/-- Features around a center, which stand in for what a map displays there. -/
def features (center : Point Float) : List (MapFeature Float) := [
  feature 1001 [("leisure", "park"), ("name", "Seward Park")]
    (.polygon [ring center
      [(-0.004, -0.003), (0.004, -0.003), (0.004, 0.003), (-0.004, 0.003)]]),
  feature 1002 [("natural", "water")]
    (.polygon [ring center [(0.004, -0.006), (0.02, -0.006), (0.02, 0.006), (0.004, 0.006)]]),
  feature 1003 [("natural", "coastline")]
    (.lineString (around center [(0.004, -0.006), (0.0045, 0.0), (0.004, 0.006)])),
  feature 1004 [("highway", "residential"), ("name", "Lake Washington Boulevard South")]
    (.lineString (around center [(-0.02, -0.001), (-0.006, -0.0015), (0.0, -0.004)])),
  feature 1005 [("highway", "footway")]
    (.multiLineString [
      around center [(-0.03, 0.002), (-0.003, 0.002)],
      around center [(-0.003, 0.002), (-0.003, 0.008)]]),
  feature 1006 [("building", "yes")]
    (.multiPolygon [
      [ring center
        [(-0.0012, 0.0004), (-0.0008, 0.0004), (-0.0008, 0.0008), (-0.0012, 0.0008)]],
      [ring center
        [(-0.0006, 0.0004), (-0.0002, 0.0004), (-0.0002, 0.0007), (-0.0006, 0.0007)]]]),
  feature 1007 [("amenity", "cafe"), ("name", "Seward Park Cafe"), ("maki", "cafe")]
    (.point [center.x - 0.001, center.y + 0.001])]

end MapStyle.Sample
