import MapStyle.Definition
import MapStyle.Renderer.Config
import MapStyle.Renderer.Document

/-!
# The style compiler

Compiling style definitions to renderer styles. From bottom to top a style has ghost layers for what
no rule claims, the layers of each rule in authored order, and the labels of points of interest.
Rule layers are filtered by effective predicates, so that one rule at most draws a feature.
-/

namespace MapStyle.Renderer

open Json

/--
A muted layer for a category of features, so that they stay visible while no rule claims them.
-/
structure Ghost where
  id : String
  kind : LayerKind
  color : Color
  width : Option Float
  /-- Keys of which a feature of the category has one. -/
  keys : List String

/-- The ghost layers, bottom first. -/
def ghosts : List Ghost := [
  ⟨"ghost-highways", .line, .ofRgb8 0xc0 0xc0 0xc0, some 3.0, ["highway"]⟩,
  ⟨"ghost-buildings", .fill, .ofRgb8 0xe0 0xe0 0xe0, none, ["building"]⟩,
  ⟨"ghost-nature-fill", .fill, .ofRgb8 0xd0 0xd0 0xd0, none, ["natural", "leisure"]⟩,
  ⟨"ghost-nature-line", .line, .ofRgb8 0xcc 0xcc 0xcc, none, ["natural", "leisure"]⟩]

def Ghost.category (g : Ghost) : Predicate :=
  match g.keys with
  | [key] => .has key
  | keys => .any (keys.map .has)

/-- The identity of the layer of points of interest. -/
def poiLayerId : String := "mapbox-pois"

def call (operator : String) (arguments : List Json) : Json :=
  .array (.string operator :: arguments)

/-- The property of the feature under a key. -/
def get (key : String) : Json :=
  call "get" [.string key]

/-- A value that a highlight replaces while the feature is hovered. -/
def hoverCase (highlight value : Json) : Json :=
  let hovered := call "boolean" [call "feature-state" [.string "hover"], .bool false]
  call "case" [hovered, highlight, value]

/-- A color that the hover color replaces while the feature is hovered. -/
def Config.hover (c : Config) (color : String) : Json :=
  hoverCase (.string c.hoverColor.hex) (.string color)

def Config.tileLayer (c : Config) (id : String) (kind : LayerKind) (filter : Predicate)
    (paint : List (String × Json)) : Layer where
  id
  kind
  source := c.tiles.id
  sourceLayer := c.tiles.sourceLayer
  filter := some filter
  layout := .empty
  paint := .ofList paint
  minZoom := some c.tiles.minZoom
  maxZoom := some c.tiles.maxZoom

/-- A ghost's layer, for the features of its category that no rule claims. -/
def Config.ghostLayer (c : Config) (unclaimed : Predicate) (g : Ghost) : Layer :=
  let color := c.hover g.color.hex
  let paint := match g.kind with
    | .fill => [("fill-color", color)]
    | _ => [("line-color", color)]
  c.tileLayer g.id g.kind (.all [unclaimed, g.category])
    (paint ++ optionalMember "line-width" g.width .ofFloat)

def Config.ghostLayers (c : Config) (rules : List Rule) : List Layer :=
  ghosts.map (c.ghostLayer (.not (Priority.anyRule rules)))

def Config.fillPaint (c : Config) (f : Fill) : List (String × Json) :=
  ("fill-color", c.hover f.color.opaqueHex) ::
    optionalMember "fill-opacity" f.color.opacity .ofFloat

/-- The dash pattern of dashed lines, in line widths. -/
def dashArray : Json :=
  .array [.ofFloat 2.0, .ofFloat 1.0]

def Config.linePaint (c : Config) (l : Line) : List (String × Json) :=
  [("line-color", c.hover l.color.opaqueHex), ("line-width", .ofFloat l.width)] ++
    optionalMember "line-opacity" l.color.opacity .ofFloat ++
    if l.dashed then [("line-dasharray", dashArray)] else []

/-- The layer of one paint of a rule. -/
def Config.paintLayer (c : Config) (e : EffectiveRule) : Paint → Layer
  | .fill f => c.tileLayer (e.rule.id ++ "-fill") .fill e.predicate (c.fillPaint f)
  | .line l => c.tileLayer (e.rule.id ++ "-line") .line e.predicate (c.linePaint l)

/-- The layers of a rule: the fill below the line, and none if the rule is unstyled. -/
def Config.ruleLayers (c : Config) (e : EffectiveRule) : List Layer :=
  e.rule.treatment.paints.map (c.paintLayer e)

/-- The predicate of features that are saved; an identity that is no number matches none. -/
def savedPredicate (pois : List Poi) : Predicate :=
  .any (pois.filterMap fun p => (Text.readWord? p.id).map .idEquals)

/-- A value by the rank of a label's size, lower and from a rank on. -/
def bySizeRank (lower : Json) (rank : Nat) (upper : Json) : Json :=
  call "step" [get "sizerank", lower, .ofNat rank, upper]

/-- A value by size rank, with one rank to change at below zoom 17 and another from there on. -/
def byZoom (lower upper : Json) : Json :=
  call "step" [call "zoom" [], bySizeRank lower 5 upper, .ofNat 17, bySizeRank lower 13 upper]

def icon (key : String) : Json :=
  call "image" [call "concat" [get key, .string "-15"]]

/-- The layout of the labels of points of interest. -/
def poiLayout : Dictionary Json := .ofList [
  ("text-field", call "coalesce" [get "name_en", get "name"]),
  ("icon-image", call "case" [call "has" [.string "maki_beta"], icon "maki_beta", icon "maki"]),
  ("icon-allow-overlap", .bool false),
  ("text-allow-overlap", .bool false),
  ("text-anchor", byZoom (.string "center") (.string "top")),
  ("text-offset", byZoom (call "literal" [.array [.ofNat 0, .ofNat 0]])
    (call "literal" [.array [.ofNat 0, .ofFloat 0.75]]))]

/-- The paint of the labels: those of saved points of interest are not faded. -/
def Config.poiPaint (c : Config) (pois : List Poi) : Dictionary Json := .ofList [
  ("text-opacity", hoverCase (.ofFloat 1.0)
    (call "case" [(savedPredicate pois).toJson, .ofFloat 1.0, .ofFloat 0.5])),
  ("text-color", .string "black"),
  ("text-halo-width", .ofNat 5),
  ("text-halo-blur", .ofFloat 0.5),
  ("text-halo-color", c.hover "white")]

def Config.poiLayer (c : Config) (pois : List Poi) (s : PoiSource) : Layer where
  id := poiLayerId
  kind := .symbol
  source := s.id
  sourceLayer := s.sourceLayer
  filter := none
  layout := poiLayout
  paint := c.poiPaint pois
  minZoom := none
  maxZoom := none

def Config.sources (c : Config) : Dictionary Source :=
  let tiles := Dictionary.empty.insert c.tiles.id ⟨c.tiles.tiles, none⟩
  match c.pois with
  | some s => tiles.insert s.id ⟨[], some s.url⟩
  | none => tiles

/-- The layers of a style, bottom first. -/
def Config.layers (c : Config) (d : Definition) : List Layer :=
  c.ghostLayers d.rules ++ (Priority.effective d.rules).flatMap c.ruleLayers ++
    (c.pois.map (c.poiLayer d.pois)).toList

/-- The renderer style of a definition, unless the definition is invalid. -/
def compile (c : Config) (d : Definition) : Except StyleError Document := do
  d.validate
  return {
    version := specVersion
    sources := c.sources
    glyphs := c.glyphs
    sprite := c.sprite
    layers := c.layers d }

end MapStyle.Renderer
