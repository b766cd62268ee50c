import MapStyle.Feature
import MapStyle.Geometry.Basic
import MapStyle.Json.Record

/-!
# Points of interest

Saved points of interest, which are drawn on top of the map with an icon and a label.
-/

namespace MapStyle

/-- A saved point of interest. Its position is a longitude and a latitude. -/
structure Poi where
  id : String
  position : Point Float
  text : String
  sprite : String

namespace Poi

/-- The first of some properties that is a string and not empty. -/
def firstText? (f : Feature) (keys : List String) : Option String :=
  (keys.filterMap f.text?).find? (· ≠ "")

/--
The point of interest that a click on a feature saves. Its label is the English name, else the name,
else the identifier; a feature without an identifier saves none.
-/
def ofFeature? (f : Feature) (position : Point Float) : Option Poi :=
  f.id.map fun id => {
    id := Text.wordText id
    position
    text := (firstText? f ["name_en", "name"]).getD (Text.wordText id)
    sprite := (firstText? f ["maki_beta", "maki"]).getD "" }

def toJson (p : Poi) : Json :=
  .object [("id", .string p.id),
    ("position", .array [.ofFloat p.position.x, .ofFloat p.position.y]),
    ("text", .string p.text), ("sprite", .string p.sprite)]

open Json

/-- A position decoded: exactly two numbers. -/
def position? : Tree → Option (Point Float)
  | .array [x, y] => do return ⟨← x.float?, ← y.float?⟩
  | _ => none

def ofTree? (t : Tree) : Option Poi := do
  let fs ← Fields.ofTree? ["id", "position", "text", "sprite"] false t
  return {
    id := ← fs.required? "id" Tree.string?
    position := ← fs.required? "position" position?
    text := ← fs.required? "text" Tree.string?
    sprite := ← fs.required? "sprite" Tree.string? }

end Poi

end MapStyle
