import MapStyle.Definition
import MapStyle.Drawing.Svg
import MapStyle.Export.FeatureLayer
import MapStyle.Export.PoiLayer

/-!
# Exports

Exports of styled map features as drawings. A drawing has a layer of features with one layer for
each rule in authored order, a layer of saved points of interest, and a layer with the attribution
if there is one. Which rule draws a feature is decided as in the renderer style. An export is `none`
if clipping a line of it never ends.
-/

namespace MapStyle

open Drawing

universe u

/-- A drawing and the problems met on the way, in the order of the drawing. -/
structure Export (α : Type u) where
  drawing : Drawing α
  diagnostics : List Diagnostic

/-- What an export is made with, apart from what it shows. -/
structure Exporter where
  options : ExportOptions
  icons : IconAtlas
  measure : TextMeasure

namespace Exporter

variable {α : Type u} [Zero α] [One α] [Add α] [Sub α] [Neg α] [Mul α] [Div α] [LT α] [LE α]
  [DecidableLT α] [DecidableLE α] [BEq α] [Hypot α] [OfDouble α]

/-- The label of the layer of features. -/
def featuresLabel : String := "Features"

/-- The label of the layer of points of interest. -/
def poisLabel : String := "POIs"

/-- The label of the layer of the attribution. -/
def attributionLabel : String := "Attribution"

/-- The distance of the attribution from the edges of the canvas. -/
def margin : Float := 4.0

def attributionColor : Color := .ofRgb8 0x33 0x33 0x33

/-- The layer of features, with a layer for each rule. -/
def featuresLayer? (e : Exporter) (c : Canvas α) (d : Definition)
    (features : List (MapFeature α)) : Option (Node α) :=
  ((Priority.effective d.rules).mapM (Export.ruleLayer? e.options c features)).map
    (.group (.layer featuresLabel))

def poisLayer (e : Exporter) (c : Canvas α) (d : Definition) : Node α :=
  .group (.layer poisLabel) (d.pois.map (Export.poiGroup e.options e.icons e.measure c))

def attributionLayer (e : Exporter) (c : Canvas α) (text : String) : Node α :=
  .group (.layer attributionLabel) [.label {
    position := ⟨c.size.width - ofDouble margin, c.size.height - ofDouble margin⟩
    text
    fontSize := e.options.attributionFontSize
    anchor := .finish
    fill := attributionColor }]

/-- The drawing with a layer of features. -/
def drawingOf (e : Exporter) (c : Canvas α) (d : Definition) (featuresLayer : Node α) :
    Drawing α where
  size := c.size
  children := [featuresLayer, e.poisLayer c d] ++
    (e.options.attribution.map (e.attributionLayer c)).toList

def diagnose (e : Exporter) (d : Definition) (features : List (MapFeature α)) : List Diagnostic :=
  (Priority.effective d.rules).flatMap (Export.ruleDiagnostics features) ++
    d.pois.filterMap (Export.poiDiagnostic? e.icons)

def run? (e : Exporter) (c : Canvas α) (d : Definition) (features : List (MapFeature α)) :
    Option (Export α) :=
  (e.featuresLayer? c d features).map fun layer => {
    drawing := e.drawingOf c d layer
    diagnostics := e.diagnose d features }

/-- The export of features that are asked for first, which may fail. -/
def runQuery? (e : Exporter) (c : Canvas α) (d : Definition) :
    Except ExportError (List (MapFeature α)) → Option (Except ExportError (Export α))
  | .ok features => (e.run? c d features).map .ok
  | .error problem => some (.error problem)

end Exporter

/-- A file to download. -/
structure Artifact where
  fileName : String
  mediaType : String
  contents : String

/-- The drawing of an export as a file. -/
def Export.artifact (e : Export Float) : Artifact where
  fileName := "map.svg"
  mediaType := "image/svg+xml"
  contents := e.drawing.toSvg

end MapStyle
