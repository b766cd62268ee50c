import MapStyle.Geometry.Basic

/-!
# The size of labels

Whoever opens a drawing shapes its texts; to lay out labels an export needs an estimate only.
-/

namespace MapStyle

/-- The size of a text at a font size, as whoever opens the drawing may shape it. -/
abbrev TextMeasure := String → Float → Size Float

/-- An estimate by the number of characters. -/
def TextMeasure.estimate : TextMeasure := fun text fontSize =>
  ⟨0.6 * fontSize * Float.ofNat text.length, fontSize⟩

end MapStyle
