import MapStyle.Decimal.Layout
import MapStyle.Drawing
import MapStyle.Markup

/-!
# Drawings as SVG

Drawings as SVG texts. Numbers have three decimals at most, and layers carry the attributes by which
Inkscape lists them.
-/

namespace MapStyle.Drawing

def toThousandths (x : Float) : Float :=
  Decimal.round (x * 1000.0) / 1000.0

/-- A number with three decimals at most; a zero has no sign. -/
def number (x : Float) : List Char :=
  let rounded := toThousandths x
  if rounded == 0.0 then ['0'] else Decimal.plain.write rounded

def separated (separator : Char) (texts : List (List Char)) : List Char :=
  [separator].intercalate texts

def numbers (xs : List Float) : List Char :=
  separated ' ' (xs.map number)

/-- A step of a path: its letter and the coordinates of its points. -/
def Step.write : Step Float → List Char
  | .move p => 'M' :: ' ' :: numbers [p.x, p.y]
  | .line p => 'L' :: ' ' :: numbers [p.x, p.y]
  | .quad c p => 'Q' :: ' ' :: numbers [c.x, c.y, p.x, p.y]
  | .cubic c d p => 'C' :: ' ' :: numbers [c.x, c.y, d.x, d.y, p.x, p.y]
  | .close => ['Z']

/-- The steps of a path with spaces between them. -/
def Path.data (p : Path Float) : String :=
  String.ofList (separated ' ' (p.steps.map Step.write))

/-- A transformation; one that only shifts is written by its shift. -/
def transformText (t : Affine Float) : String :=
  String.ofList
    (if t.a == 1.0 && t.b == 0.0 && t.c == 0.0 && t.d == 1.0 then
      "translate(".toList ++ numbers [t.e, t.f] ++ [')']
    else "matrix(".toList ++ numbers [t.a, t.b, t.c, t.d, t.e, t.f] ++ [')'])

def numberAttribute (name : String) (x : Float) : String × String :=
  (name, String.ofList (number x))

/-- The attributes of a paint: its color, and its opacity if it is not opaque. -/
def paintAttributes (name : String) (c : Color) : List (String × String) :=
  (name, c.opaqueHex) :: (c.opacity.map (numberAttribute (name ++ "-opacity"))).toList

def Stroke.attributes (s : Stroke) : List (String × String) :=
  paintAttributes "stroke" s.color ++ numberAttribute "stroke-width" s.width ::
    (s.dashes.map fun (dash, gap) =>
      ("stroke-dasharray", String.ofList (separated ',' [number dash, number gap]))).toList

def Path.attributes (p : Path Float) : List (String × String) :=
  ("d", p.data) :: ((p.fill.map (paintAttributes "fill")).getD [("fill", "none")] ++
    (p.stroke.map Stroke.attributes).getD [])

def Anchor.name : Anchor → String
  | .start => "start"
  | .middle => "middle"
  | .finish => "end"

def Label.attributes (l : Label Float) : List (String × String) :=
  [numberAttribute "x" l.position.x, numberAttribute "y" l.position.y,
    numberAttribute "font-size" l.fontSize, ("text-anchor", l.anchor.name)] ++
    paintAttributes "fill" l.fill

def GroupHead.attributes (h : GroupHead Float) : List (String × String) :=
  (h.label.map fun label => ("inkscape:label", label)).toList ++
    (if h.isLayer then [("inkscape:groupmode", "layer")] else []) ++
    (h.transform.map fun t => ("transform", transformText t)).toList

mutual

def Node.markup : Node Float → Markup
  | .group head children => .element "g" head.attributes (markupOf children)
  | .path p => .element "path" p.attributes []
  | .label l => .text "text" l.attributes l.text
  | .verbatim markup => .verbatim markup

def markupOf : List (Node Float) → List Markup
  | [] => []
  | node :: nodes => node.markup :: markupOf nodes

end

def rootAttributes (size : Size Float) : List (String × String) := [
  ("xmlns", "http://www.w3.org/2000/svg"),
  ("xmlns:inkscape", "http://www.inkscape.org/namespaces/inkscape"),
  ("viewBox", String.ofList (numbers [0.0, 0.0, size.width, size.height])),
  numberAttribute "width" size.width,
  numberAttribute "height" size.height]

def toSvg (d : Drawing Float) : String :=
  Markup.document "svg" (rootAttributes d.size) (markupOf d.children)

end MapStyle.Drawing
