import MapStyle.Decimal.Reading
import MapStyle.Geometry.Basic
import MapStyle.Text.Blank
import MapStyle.Text.Cut

/-!
# Icons

Icons of points of interest: what stands inside the root element of an SVG text, and the size that
the root element declares.
-/

namespace MapStyle

/-- An icon. Its markup is drawn as it is. -/
structure Icon where
  size : Size Float
  markup : String

namespace Icon

open Text

/-- The width and height of an icon that declares none. -/
def defaultSide : Float := 15.0

/--
The value of an attribute in a tag. A blank stands before its name and double quotes around it.
-/
def attribute? (tag : List Char) (name : String) : Option (List Char) := do
  let (_, rest) ← cutFirst? (' ' :: name.toList ++ ['=', '"']) tag
  let (value, _) ← cutFirst? ['"'] rest
  return value

/-- A text, written backwards, without the units of pixels that it begins with. -/
def dropUnits : List Char → List Char
  | 'x' :: 'p' :: rest => dropUnits rest
  | text => text

/-- A length: a number, with or without the unit of pixels. -/
def length? (text : List Char) : Option Float :=
  Decimal.read? (dropUnits text.reverse).reverse

/-- The width and height of a view box, which is four numbers; words that are none do not count. -/
def viewBoxSize? (text : List Char) : Option (Size Float) :=
  match (words (fun c => c == ' ' || c == ',') text).filterMap Decimal.read? with
  | [_, _, width, height] => some ⟨width, height⟩
  | _ => none

/-- The size that width and height attributes of a tag declare together. -/
def declaredSize? (tag : List Char) : Option (Size Float) := do
  let width ← (attribute? tag "width").bind length?
  let height ← (attribute? tag "height").bind length?
  return ⟨width, height⟩

/-- The size of an icon by its root tag: the declared one, else that of its view box. -/
def rootSize (tag : List Char) : Size Float :=
  ((declaredSize? tag).or ((attribute? tag "viewBox").bind viewBoxSize?)).getD
    ⟨defaultSide, defaultSide⟩

/-- The icon of an SVG text, if that has a root element. -/
def ofSvg? (svg : String) : Option Icon := do
  let (_, rest) ← cutFirst? "<svg".toList svg.toList
  let (attributes, body) ← cutFirst? ['>'] rest
  let tag := "<svg".toList ++ attributes
  if tag.getLast? = some '/' then return ⟨rootSize tag, ""⟩
  let (content, _) ← cutLast? "</svg>".toList body
  return ⟨rootSize tag, String.ofList (trim content)⟩

end Icon

end MapStyle
