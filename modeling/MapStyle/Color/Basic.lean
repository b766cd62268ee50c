/-!
# Colors

Colors of the sRGB space. A color keeps its components with single precision and may lie outside of
the displayable range; every text shows it rounded to 8 bits for each component.
-/

namespace MapStyle

/-- A color by its sRGB components and alpha, where 0 to 1 is the displayable range. -/
structure Color where
  red : Float32
  green : Float32
  blue : Float32
  alpha : Float32

/-- A color with 8 bits for each component. -/
structure Rgba8 where
  red : UInt8
  green : UInt8
  blue : UInt8
  alpha : UInt8
deriving DecidableEq

namespace Color

/-- The component that 8 bits denote. -/
def ofByte (n : UInt8) : Float32 :=
  n.toFloat32 * (1.0 / 255.0)

/-- A component rounded to 8 bits; beyond the displayable range it is cut off. -/
def toByte (x : Float32) : UInt8 :=
  (x * 255.0 + 0.5).toUInt8

/-- The color of 8 bits for each component. -/
def ofRgba8 (c : Rgba8) : Color :=
  ⟨ofByte c.red, ofByte c.green, ofByte c.blue, ofByte c.alpha⟩

/-- The color rounded to 8 bits for each component. -/
def toRgba8 (c : Color) : Rgba8 :=
  ⟨toByte c.red, toByte c.green, toByte c.blue, toByte c.alpha⟩

def ofRgb8 (red green blue : UInt8) : Color :=
  ofRgba8 ⟨red, green, blue, 255⟩

/-- The color of strokes that nobody has chosen yet, and of hovered features. -/
def pureRed : Color := ofRgb8 255 0 0

def black : Color := ofRgb8 0 0 0

/-- Two hexadecimal digits in lower case. -/
def hexByte (n : UInt8) : List Char :=
  [Nat.digitChar (n.toNat / 16), Nat.digitChar (n.toNat % 16)]

/-- The color as `#rrggbb`, whatever its alpha. -/
def opaqueHex (c : Color) : String :=
  let c := c.toRgba8
  String.ofList ('#' :: hexByte c.red ++ hexByte c.green ++ hexByte c.blue)

/-- The color as `#rrggbb`, or as `#rrggbbaa` if it is not opaque. -/
def hex (c : Color) : String :=
  let alpha := c.toRgba8.alpha
  if alpha = 255 then c.opaqueHex else c.opaqueHex ++ String.ofList (hexByte alpha)

/-- The alpha of a color that is not opaque, as a fraction. -/
def opacity (c : Color) : Option Float :=
  let alpha := c.toRgba8.alpha
  if alpha = 255 then none else some (alpha.toFloat / 255.0)

end Color

end MapStyle
