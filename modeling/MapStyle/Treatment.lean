import MapStyle.Color.Css
import MapStyle.Json.Record

/-!
# Treatments

The paint of a rule: a line, a fill, both or neither.
-/

namespace MapStyle

/-- The stroke of lines and outlines. The width is in screen pixels. -/
structure Line where
  width : Float
  color : Color
  dashed : Bool

/-- The paint of areas. -/
structure Fill where
  color : Color

/-- What a rule paints. Without line and fill it paints nothing but still claims its features. -/
structure Treatment where
  line : Option Line
  fill : Option Fill

/-- One paint operation. -/
inductive Paint where
  | fill (f : Fill)
  | line (l : Line)

namespace Line

/-- Whether the width is finite and positive. -/
def isValid (l : Line) : Bool :=
  l.width.isFinite && decide (0.0 < l.width)

end Line

namespace Treatment

def unstyled : Treatment := ⟨none, none⟩

def isUnstyled (t : Treatment) : Bool :=
  t.line.isNone && t.fill.isNone

/-- The paint operations in drawing order: the fill below the line. -/
def paints (t : Treatment) : List Paint :=
  (t.fill.map .fill).toList ++ (t.line.map .line).toList

end Treatment

open Json

def Color.ofTree? (t : Tree) : Option Color :=
  t.string?.bind fun text => (Color.ofCss text).toOption

namespace Line

def toJson (l : Line) : Json :=
  .object [("width", .ofFloat l.width), ("color", .string l.color.hex), ("dashed", .bool l.dashed)]

/-- A line decoded; it is solid unless the text says otherwise. -/
def ofTree? (t : Tree) : Option Line := do
  let fs ← Fields.ofTree? ["width", "color", "dashed"] false t
  return {
    width := ← fs.required? "width" Tree.float?
    color := ← fs.required? "color" Color.ofTree?
    dashed := ← fs.withDefault? "dashed" false Tree.bool? }

end Line

namespace Fill

def toJson (f : Fill) : Json :=
  .object [("color", .string f.color.hex)]

def ofTree? (t : Tree) : Option Fill := do
  let fs ← Fields.ofTree? ["color"] false t
  return { color := ← fs.required? "color" Color.ofTree? }

end Fill

end MapStyle
