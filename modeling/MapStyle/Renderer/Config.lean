import MapStyle.Treatment

/-!
# Settings of the style compiler

Where the layers of a renderer style read their data from.
-/

namespace MapStyle.Renderer

/-- The vector tiles that carry the styled features. -/
structure TileSource where
  id : String
  /-- Templates of tile addresses. -/
  tiles : List String
  /-- The layer inside each tile. -/
  sourceLayer : String
  /-- The zoom levels at which rule layers are drawn. -/
  minZoom : UInt8
  maxZoom : UInt8

/-- The base map that provides labels of points of interest. -/
structure PoiSource where
  id : String
  url : String
  sourceLayer : String

/-- Settings of the style compiler. -/
structure Config where
  tiles : TileSource
  /-- Without this source there is no layer of points of interest. -/
  pois : Option PoiSource
  /-- The address of glyphs for text. -/
  glyphs : Option String
  /-- The address of the sprite sheet for icons. -/
  sprite : Option String
  /-- The color in which hovered features are drawn. -/
  hoverColor : Color

/-- A tile server on this machine. -/
def TileSource.default : TileSource where
  id := "postgis-tiles"
  tiles := ["http://localhost:8080/api/v1/tile/\x7bz\x7d/\x7bx\x7d/\x7by\x7d"]
  sourceLayer := "default"
  minZoom := 14
  maxZoom := 22

def PoiSource.default : PoiSource where
  id := "mapbox"
  url := "mapbox://mapbox.mapbox-streets-v8"
  sourceLayer := "poi_label"

/-- Both default sources, without glyphs and sprites. -/
def Config.default : Config where
  tiles := .default
  pois := some .default
  glyphs := none
  sprite := none
  hoverColor := .pureRed

/-- One template of tile addresses in place of all. -/
def Config.withTileUrl (c : Config) (url : String) : Config :=
  { c with tiles := { c.tiles with tiles := [url] } }

def Config.withTiles (c : Config) (tiles : TileSource) : Config :=
  { c with tiles }

/-- Another source of points of interest, or none. -/
def Config.withPois (c : Config) (pois : Option PoiSource) : Config :=
  { c with pois }

def Config.withGlyphs (c : Config) (url : String) : Config :=
  { c with glyphs := some url }

def Config.withSprite (c : Config) (url : String) : Config :=
  { c with sprite := some url }

def Config.withHoverColor (c : Config) (hoverColor : Color) : Config :=
  { c with hoverColor }

open Json

/-- A tile source decoded; a missing field has its default. -/
def TileSource.ofTree? (t : Tree) : Option TileSource := do
  let fs ← Fields.ofTree? ["id", "tiles", "source_layer", "min_zoom", "max_zoom"] false t
  let d := TileSource.default
  return {
    id := ← fs.withDefault? "id" d.id Tree.string?
    tiles := ← fs.withDefault? "tiles" d.tiles (Tree.list? Tree.string?)
    sourceLayer := ← fs.withDefault? "source_layer" d.sourceLayer Tree.string?
    minZoom := ← fs.withDefault? "min_zoom" d.minZoom Tree.byte?
    maxZoom := ← fs.withDefault? "max_zoom" d.maxZoom Tree.byte? }

/-- A source of points of interest decoded; a missing field has its default. -/
def PoiSource.ofTree? (t : Tree) : Option PoiSource := do
  let fs ← Fields.ofTree? ["id", "url", "source_layer"] false t
  let d := PoiSource.default
  return {
    id := ← fs.withDefault? "id" d.id Tree.string?
    url := ← fs.withDefault? "url" d.url Tree.string?
    sourceLayer := ← fs.withDefault? "source_layer" d.sourceLayer Tree.string? }

/-- Settings decoded; a missing field has its default, and null is no source or no address. -/
def Config.ofTree? (t : Tree) : Option Config := do
  let fs ← Fields.ofTree? ["tiles", "pois", "glyphs", "sprite", "hover_color"] false t
  let d := Config.default
  return {
    tiles := ← fs.withDefault? "tiles" d.tiles TileSource.ofTree?
    pois := ← fs.withDefault? "pois" d.pois (Tree.nullable? PoiSource.ofTree?)
    glyphs := ← fs.withDefault? "glyphs" d.glyphs (Tree.nullable? Tree.string?)
    sprite := ← fs.withDefault? "sprite" d.sprite (Tree.nullable? Tree.string?)
    hoverColor := ← fs.withDefault? "hover_color" d.hoverColor Color.ofTree? }

end MapStyle.Renderer
