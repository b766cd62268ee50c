import MapStyle.Drawing
import MapStyle.Export.Canvas
import MapStyle.Export.Diagnostic
import MapStyle.Export.Options
import MapStyle.Geometry.Clip
import MapStyle.Geometry.OfDouble
import MapStyle.Geometry.Simplify
import MapStyle.Priority

/-!
# The layers of rules

The layers of rules in an export. A rule's layer draws the features that its effective predicate
matches, in the order in which they are given: lines and areas are clipped to the bounds, projected,
simplified if there is a tolerance, and painted by the rule's treatment. What is made of lines is
`none` if clipping one of them never ends.
-/

namespace MapStyle.Export

open Drawing

universe u

variable {α : Type u} [Zero α] [One α] [Add α] [Sub α] [Neg α] [Mul α] [Div α] [LT α] [LE α]
  [DecidableLT α] [DecidableLE α] [BEq α] [Hypot α] [OfDouble α]

/-- The lengths of dashes and gaps of dashed lines. -/
def dashPattern : Float × Float := (5.0, 2.5)

def strokeOf (l : Line) : Stroke :=
  ⟨l.color, l.width, if l.dashed then some dashPattern else none⟩

/-- The points of a line that stay; only a positive tolerance simplifies. -/
def simplified (o : ExportOptions) (points : List (Point α)) : List (Point α) :=
  match o.simplifyTolerance with
  | some tolerance => if 0.0 < tolerance then Simplify.line (ofDouble tolerance) points else points
  | none => points

/-- The steps of a path through points, of which two are needed. -/
def stepsThrough? (closed : Bool) : List (Point α) → Option (List (Step α))
  | first :: second :: rest =>
    some (.move first :: (second :: rest).map .line ++ if closed then [.close] else [])
  | _ => none

/-- The path of a clipped line or ring. It is closed if it is filled. -/
def path? (o : ExportOptions) (c : Canvas α) (t : Treatment) (points : List (Point α)) :
    Option (Path α) :=
  (stepsThrough? t.fill.isSome (simplified o (points.map c.place))).map fun steps => {
    steps
    fill := t.fill.map Fill.color
    stroke := t.line.map strokeOf }

/-- The paths of the visible pieces of a line. -/
def linePaths? (o : ExportOptions) (c : Canvas α) (t : Treatment) (line : List (List α)) :
    Option (List (Path α)) :=
  (Clip.line? c.bounds (Shape.places line)).map fun pieces => pieces.filterMap (path? o c t)

/-- The paths of the visible parts of rings. -/
def ringPaths (o : ExportOptions) (c : Canvas α) (t : Treatment) (rings : List (List (List α))) :
    List (Path α) :=
  rings.filterMap fun ring => path? o c t (Clip.ring c.bounds (Shape.places ring))

/-- A group of nodes, unless there are none. -/
def group? (nodes : List (Node α)) : Option (Node α) :=
  if nodes.isEmpty then none else some (.group .plain nodes)

/-- A group of paths, unless there are none. -/
def pathGroup? (paths : List (Path α)) : Option (Node α) :=
  group? (paths.map .path)

/-- The node of a single line: the path of its only piece, or a group. -/
def lineNode? : List (Path α) → Option (Node α)
  | [path] => some (.path path)
  | paths => pathGroup? paths

/-- The node of a shape, if it is of a kind that is drawn and some of it is visible. -/
def shapeNode? (o : ExportOptions) (c : Canvas α) (t : Treatment) :
    Shape α → Option (Option (Node α))
  | .lineString line => (linePaths? o c t line).map lineNode?
  | .multiLineString lines =>
    (lines.mapM (linePaths? o c t)).map fun paths => pathGroup? paths.flatten
  | .polygon rings => some (pathGroup? (ringPaths o c t rings))
  | .multiPolygon polygons =>
    some (group? (polygons.filterMap fun rings => pathGroup? (ringPaths o c t rings)))
  | .point _ => some none
  | .multiPoint _ => some none
  | .collection _ => some none

/-- Whether shapes of a kind are drawn by rules. -/
def isDrawn : Shape α → Bool
  | .point _ => false
  | .multiPoint _ => false
  | .collection _ => false
  | _ => true

/-- The features that a rule claims. -/
def claimed (e : EffectiveRule) (features : List (MapFeature α)) : List (MapFeature α) :=
  features.filter fun f => e.predicate.holds f.toFeature

/-- The nodes of features by a rule, which are none if the rule is unstyled. -/
def featureNodes? (o : ExportOptions) (c : Canvas α) (t : Treatment)
    (features : List (MapFeature α)) : Option (List (Node α)) :=
  if t.isUnstyled then some []
  else (features.mapM fun f => shapeNode? o c t f.shape).map (List.filterMap id)

/-- The layer of a rule. -/
def ruleLayer? (o : ExportOptions) (c : Canvas α) (features : List (MapFeature α))
    (e : EffectiveRule) : Option (Node α) :=
  (featureNodes? o c e.rule.treatment (claimed e features)).map
    (.group (.layer e.rule.filter.label))

/-- The problem with a feature that a rule claims. -/
def featureDiagnostic? (r : Rule) (f : MapFeature α) : Option Diagnostic :=
  if isDrawn f.shape then none else some (.unsupportedGeometry r.id f.id f.shape.typeName)

/-- The problems with a rule and the features that it claims. -/
def ruleDiagnostics (features : List (MapFeature α)) (e : EffectiveRule) : List Diagnostic :=
  if e.rule.treatment.isUnstyled then [.unstyledRule e.rule.id]
  else (claimed e features).filterMap (featureDiagnostic? e.rule)

end MapStyle.Export
