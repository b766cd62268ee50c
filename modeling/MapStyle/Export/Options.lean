import MapStyle.Json.Record

/-!
# Settings of exports

Settings of exports.
-/

namespace MapStyle

/-- Settings of an export; sizes are in pixels. -/
structure ExportOptions where
  /-- How far simplified lines may be off. Without a tolerance every vertex stays. -/
  simplifyTolerance : Option Float
  poiFontSize : Float
  /-- The gap between an icon and its label. -/
  poiLabelGap : Float
  /-- A text for the lower right corner. -/
  attribution : Option String
  attributionFontSize : Float

namespace ExportOptions

/-- All vertices and no attribution. -/
def default : ExportOptions where
  simplifyTolerance := none
  poiFontSize := 12.0
  poiLabelGap := 2.0
  attribution := none
  attributionFontSize := 10.0

def withSimplifyTolerance (o : ExportOptions) (tolerance : Float) : ExportOptions :=
  { o with simplifyTolerance := some tolerance }

def withAttribution (o : ExportOptions) (text : String) : ExportOptions :=
  { o with attribution := some text }

open Json

/-- Settings decoded; a missing field has its default. -/
def ofTree? (t : Tree) : Option ExportOptions := do
  let fs ← Fields.ofTree? ["simplify_tolerance", "poi_font_size", "poi_label_gap", "attribution",
    "attribution_font_size"] false t
  let d := default
  return {
    simplifyTolerance :=
      ← fs.withDefault? "simplify_tolerance" d.simplifyTolerance (Tree.nullable? Tree.float?)
    poiFontSize := ← fs.withDefault? "poi_font_size" d.poiFontSize Tree.float?
    poiLabelGap := ← fs.withDefault? "poi_label_gap" d.poiLabelGap Tree.float?
    attribution := ← fs.withDefault? "attribution" d.attribution (Tree.nullable? Tree.string?)
    attributionFontSize :=
      ← fs.withDefault? "attribution_font_size" d.attributionFontSize Tree.float? }

end ExportOptions

end MapStyle
