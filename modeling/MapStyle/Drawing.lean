import MapStyle.Color.Basic
import MapStyle.Geometry.Basic

/-!
# Drawings

Drawings: trees of groups, paths, texts and ready markup, just rich enough for maps. Coordinates may
be any numbers; widths and font sizes, which come from styles, are doubles.
-/

namespace MapStyle

universe u

/-- An affine map: `x' = a x + c y + e` and `y' = b x + d y + f`. -/
structure Affine (α : Type u) where
  a : α
  b : α
  c : α
  d : α
  e : α
  f : α

/-- The image of a point. -/
def Affine.apply {α : Type u} [Add α] [Mul α] (t : Affine α) (p : Point α) : Point α :=
  ⟨t.a * p.x + t.c * p.y + t.e, t.b * p.x + t.d * p.y + t.f⟩

/-- The map that moves the origin to a point. -/
def Affine.shift {α : Type u} [Zero α] [One α] (p : Point α) : Affine α :=
  ⟨1, 0, 0, 1, p.x, p.y⟩

namespace Drawing

variable {α : Type u}

/-- A step of a path: to a point, straight or around control points, or back to the start. -/
inductive Step (α : Type u) where
  | move (p : Point α)
  | line (p : Point α)
  | quad (c p : Point α)
  | cubic (c d p : Point α)
  | close

/-- The stroke of a path, with the lengths of dashes and gaps if it is dashed. -/
structure Stroke where
  color : Color
  width : Float
  dashes : Option (Float × Float)

/-- A path with its paint. -/
structure Path (α : Type u) where
  steps : List (Step α)
  fill : Option Color
  stroke : Option Stroke

/-- Which part of a text stands at its position. -/
inductive Anchor where
  | start
  | middle
  | finish
deriving DecidableEq

/-- A line of text. -/
structure Label (α : Type u) where
  position : Point α
  text : String
  fontSize : Float
  anchor : Anchor
  fill : Color

/--
What is known of a group apart from its content. Layers are groups that editors list by label.
-/
structure GroupHead (α : Type u) where
  label : Option String
  isLayer : Bool
  transform : Option (Affine α)

/-- A group that has nothing but content. -/
def GroupHead.plain : GroupHead α := ⟨none, false, none⟩

def GroupHead.layer (label : String) : GroupHead α := ⟨some label, true, none⟩

/-- The head of a group that is moved. -/
def GroupHead.moved [Zero α] [One α] (origin : Point α) : GroupHead α :=
  ⟨none, false, some (.shift origin)⟩

/-- A part of a drawing. -/
inductive Node (α : Type u) where
  | group (head : GroupHead α) (children : List (Node α))
  | path (p : Path α)
  | label (l : Label α)
  | verbatim (markup : String)

mutual

/-- All paths of a node, in drawing order. -/
def Node.paths : Node α → List (Path α)
  | .group _ children => pathsOf children
  | .path p => [p]
  | .label _ => []
  | .verbatim _ => []

/-- All paths of nodes, in drawing order. -/
def pathsOf : List (Node α) → List (Path α)
  | [] => []
  | node :: nodes => node.paths ++ pathsOf nodes

end

end Drawing

/-- A drawing on a canvas. -/
structure Drawing (α : Type u) where
  size : Size α
  children : List (Drawing.Node α)

/-- The content of the first group with a label among the outermost nodes. -/
def Drawing.group? {α : Type u} (d : Drawing α) (label : String) : Option (List (Node α)) :=
  d.children.findSome? fun
    | .group head children => if head.label = some label then some children else none
    | _ => none

end MapStyle
