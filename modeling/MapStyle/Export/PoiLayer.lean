import MapStyle.Drawing
import MapStyle.Export.Canvas
import MapStyle.Export.Diagnostic
import MapStyle.Export.Options
import MapStyle.Export.TextMeasure
import MapStyle.Geometry.OfDouble
import MapStyle.IconAtlas

/-!
# The layer of points of interest

The saved points of interest in an export: an icon above its label, both centered on the point.
-/

namespace MapStyle.Export

open Drawing

universe u

variable {α : Type u} [Zero α] [One α] [Sub α] [OfDouble α]

/-- How a point of interest is laid out, relative to its position. -/
structure PoiLayout where
  /-- The upper left corner of the icon. -/
  iconCorner : Point Float
  /-- The left end of the label's baseline. -/
  labelStart : Point Float

/-- The share of a label's height that lies above its baseline. -/
def ascent : Float := 0.8

/-- The layout of an icon and a label of some size. Without an icon there is no gap. -/
def poiLayout (o : ExportOptions) (icon : Option Icon) (label : Size Float) : PoiLayout :=
  let iconSize := (icon.map Icon.size).getD ⟨0.0, 0.0⟩
  let gap := if icon.isSome then o.poiLabelGap else 0.0
  let top := -(iconSize.height + gap + label.height) / 2.0
  { iconCorner := ⟨-iconSize.width / 2.0, top⟩
    labelStart := ⟨-label.width / 2.0, top + iconSize.height + gap + ascent * label.height⟩ }

def poiGroup (o : ExportOptions) (icons : IconAtlas) (measure : TextMeasure) (c : Canvas α)
    (p : Poi) : Node α :=
  let icon := icons.find? p.sprite
  let layout := poiLayout o icon (measure p.text o.poiFontSize)
  let iconGroup := icon.map fun icon =>
    Node.group (.moved (.ofDoubles layout.iconCorner)) [.verbatim icon.markup]
  .group (.moved (c.place (.ofDoubles p.position)))
    (iconGroup.toList ++ [.label {
      position := .ofDoubles layout.labelStart
      text := p.text
      fontSize := o.poiFontSize
      anchor := .start
      fill := .black }])

def poiDiagnostic? (icons : IconAtlas) (p : Poi) : Option Diagnostic :=
  if (icons.find? p.sprite).isSome then none else some (.missingIcon p.id p.sprite)

end MapStyle.Export
