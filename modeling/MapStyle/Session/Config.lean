import MapStyle.Export.Options
import MapStyle.Geometry.Mercator
import MapStyle.Renderer.Config

/-!
# Settings of a session

Settings of a session: those of the style compiler, of the export and of the view. They come from a
file that may leave anything out, and the environment overrides some addresses.
-/

namespace MapStyle.Session

/-- The settings of a session. -/
structure Config where
  style : Renderer.Config
  options : ExportOptions
  view : View Float

/-- The addresses that the environment gives. -/
structure Overrides where
  tileUrl : Option String
  glyphs : Option String
  sprite : Option String

/-- A park by a lake, on a canvas of the usual size. -/
def defaultView : View Float where
  center := ⟨-122.274154, 47.567995⟩
  zoom := 15.0
  size := ⟨1024.0, 768.0⟩

def Config.default : Config := ⟨.default, .default, defaultView⟩

/-- Settings of the style compiler with the addresses that the environment gives. -/
def Overrides.apply (o : Overrides) (c : Renderer.Config) : Renderer.Config :=
  let c := o.tileUrl.elim c c.withTileUrl
  let c := o.glyphs.elim c c.withGlyphs
  o.sprite.elim c c.withSprite

/-- Settings with the addresses that the environment gives. -/
def Config.override (c : Config) (o : Overrides) : Config :=
  { c with style := o.apply c.style }

open Json

/-- A view decoded; a missing field has its default. -/
def view? (t : Tree) : Option (View Float) := do
  let fs ← Fields.ofTree? ["lng", "lat", "zoom", "width", "height"] false t
  let d := defaultView
  let lng ← fs.withDefault? "lng" d.center.x Tree.float?
  let lat ← fs.withDefault? "lat" d.center.y Tree.float?
  let zoom ← fs.withDefault? "zoom" d.zoom Tree.float?
  let width ← fs.withDefault? "width" d.size.width Tree.float?
  let height ← fs.withDefault? "height" d.size.height Tree.float?
  return ⟨⟨lng, lat⟩, zoom, ⟨width, height⟩⟩

/-- Settings decoded; a missing section has its default. -/
def Config.ofTree? (t : Tree) : Option Config := do
  let fs ← Fields.ofTree? ["style", "export", "view"] false t
  let d := Config.default
  return {
    style := ← fs.withDefault? "style" d.style Renderer.Config.ofTree?
    options := ← fs.withDefault? "export" d.options ExportOptions.ofTree?
    view := ← fs.withDefault? "view" d.view view? }

end MapStyle.Session
