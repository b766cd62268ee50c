/-!
# Color spaces

Color spaces and their conversion to sRGB, without gamut mapping. The rectangular spaces go through
linear-light sRGB; hue, saturation, lightness and hue, whiteness, blackness are views of sRGB
itself.
-/

namespace MapStyle.Color

/-- Three color components. -/
structure Triple where
  x : Float32
  y : Float32
  z : Float32

/-- The color spaces that a color may be given in. -/
inductive Space where
  | srgb
  | linearSrgb
  | displayP3
  | a98
  | prophoto
  | rec2020
  | xyzD50
  | xyzD65
  | lab
  | lch
  | oklab
  | oklch
  | hsl
  | hwb
deriving DecidableEq

namespace Triple

/-- Each component under a function. -/
def map (f : Float32 → Float32) (t : Triple) : Triple :=
  ⟨f t.x, f t.y, f t.z⟩

def dot (s t : Triple) : Float32 :=
  s.x * t.x + s.y * t.y + s.z * t.z

end Triple

/-- A matrix by its rows. -/
structure Matrix where
  first : Triple
  second : Triple
  third : Triple

/-- A matrix applied to a triple. -/
def Matrix.apply (m : Matrix) (t : Triple) : Triple :=
  ⟨m.first.dot t, m.second.dot t, m.third.dot t⟩

/-- The magnitude of the first number with the sign of the second. -/
def withSign (magnitude sign : Float32) : Float32 :=
  if sign < 0.0 then -magnitude else magnitude

/-- A component of linear light, encoded for sRGB. -/
def encodeSrgb (x : Float32) : Float32 :=
  if x.abs ≤ 0.0031308 then x * 12.92
  else withSign (1.055 * x.abs.pow (1.0 / 2.4) - 0.055) x

def decodeSrgb (x : Float32) : Float32 :=
  if x.abs ≤ 0.04045 then x * (1.0 / 12.92)
  else withSign (((x.abs + 0.055) * (1.0 / 1.055)).pow 2.4) x

/-- A component of the Adobe RGB space as linear light. -/
def decodeA98 (x : Float32) : Float32 :=
  withSign (x.abs.pow (563.0 / 256.0)) x

/-- A component of the ProPhoto space as linear light. -/
def decodeProphoto (x : Float32) : Float32 :=
  if x.abs ≤ 16.0 / 512.0 then x / 16.0 else withSign (x.abs.pow 1.8) x

/-- A component of the Rec. 2020 space as linear light. -/
def decodeRec2020 (x : Float32) : Float32 :=
  let a : Float32 := 1.0992968
  let b : Float32 := 0.01805397
  if x.abs < b * 4.5 then x * (1.0 / 4.5)
  else withSign (((x.abs + (a - 1.0)) / a).pow (1.0 / 0.45)) x

/-- From linear light of the Display P3 space. -/
def displayP3ToSrgb : Matrix :=
  ⟨⟨1.2249402, -0.22494018, 0.0⟩, ⟨-0.042056955, 1.0420569, 0.0⟩,
    ⟨-0.019637555, -0.078636046, 1.0982736⟩⟩

/-- From linear light of the Adobe RGB space. -/
def a98ToSrgb : Matrix :=
  ⟨⟨1.3983557, -0.39835575, 0.0⟩, ⟨0.0, 1.0, 0.0⟩, ⟨0.0, -0.04292899, 1.0429289⟩⟩

/-- From linear light of the ProPhoto space, whose white point is D50. -/
def prophotoToSrgb : Matrix :=
  ⟨⟨2.0343676, -0.7276345, -0.30673307⟩, ⟨-0.22882679, 1.2317533, -0.002926598⟩,
    ⟨-0.008558424, -0.1532682, 1.1618266⟩⟩

/-- From linear light of the Rec. 2020 space. -/
def rec2020ToSrgb : Matrix :=
  ⟨⟨1.660491, -0.5876411, -0.07284986⟩, ⟨-0.12455048, 1.1328999, -0.008349422⟩,
    ⟨-0.018150763, -0.1005789, 1.1187297⟩⟩

/-- From tristimulus values under D50. -/
def xyzD50ToSrgb : Matrix :=
  ⟨⟨3.134136, -1.617386, -0.49066222⟩, ⟨-0.97879547, 1.9162544, 0.033442874⟩,
    ⟨0.07195539, -0.22897676, 1.4053861⟩⟩

/-- From tristimulus values under D65. -/
def xyzD65ToSrgb : Matrix :=
  ⟨⟨3.24097, -1.5373832, -0.49861076⟩, ⟨-0.96924365, 1.8759675, 0.04155506⟩,
    ⟨0.05563008, -0.20397696, 1.0569715⟩⟩

/-- From the white point's multiples to linear light. -/
def labToSrgb : Matrix :=
  ⟨⟨3.0222337, -1.617386, -0.40484765⟩, ⟨-0.94384825, 1.9162544, 0.027593868⟩,
    ⟨0.06938627, -0.22897676, 1.1595905⟩⟩

/-- From Oklab to the cube roots of cone responses. -/
def oklabToLms : Matrix :=
  ⟨⟨1.0, 0.39633778, 0.21580376⟩, ⟨1.0, -0.105561346, -0.06385417⟩,
    ⟨1.0, -0.08948418, -1.2914855⟩⟩

/-- From cone responses. -/
def lmsToSrgb : Matrix :=
  ⟨⟨4.0767417, -3.3077116, 0.23096994⟩, ⟨-1.268438, 2.6097574, -0.34131938⟩,
    ⟨-0.0041960863, -0.7034186, 1.7076147⟩⟩

/-- The inverse of the lightness curve: a cube, and a line near black. -/
def labInverse (t : Float32) : Float32 :=
  let kappa : Float32 := 24389.0 / 27.0
  if 0.20689656 < t then t * t * t else 116.0 / kappa * t - 16.0 / kappa

def linearOfLab (t : Triple) : Triple :=
  let fy := t.x * (1.0 / 116.0) + 16.0 / 116.0
  let fx := t.y * (1.0 / 500.0) + fy
  let fz := fy - t.z * (1.0 / 200.0)
  labToSrgb.apply (Triple.map labInverse ⟨fx, fy, fz⟩)

def linearOfOklab (t : Triple) : Triple :=
  lmsToSrgb.apply ((oklabToLms.apply t).map fun x => x * x * x)

/-- Lightness, chroma and hue in degrees as lightness and two coordinates. -/
def rectangular (t : Triple) : Triple :=
  let angle := t.z * (3.14159265 / 180.0)
  ⟨t.x, t.y * angle.cos, t.y * angle.sin⟩

/-- Hue, saturation and lightness as sRGB. A hue without bound has no color: it leaves NaN. -/
def srgbOfHsl (t : Triple) : Triple :=
  let saturation := t.y * 0.01
  let lightness := t.z * 0.01
  let a := saturation * min lightness (1.0 - lightness)
  let channel (n : Float32) : Float32 :=
    let x := n + t.x * (1.0 / 30.0)
    let k := x - 12.0 * (x * (1.0 / 12.0)).floor
    let slope := min (k - 3.0) (9.0 - k)
    lightness - a * (if slope < -1.0 then -1.0 else if 1.0 < slope then 1.0 else slope)
  ⟨channel 0.0, channel 8.0, channel 4.0⟩

def srgbOfHwb (t : Triple) : Triple :=
  let white := t.y * 0.01
  let black := t.z * 0.01
  if 1.0 ≤ white + black then
    let gray := white / (white + black)
    ⟨gray, gray, gray⟩
  else (srgbOfHsl ⟨t.x, 100.0, 50.0⟩).map fun x => white + x * (1.0 - white - black)

def Space.toSrgb (space : Space) (t : Triple) : Triple :=
  match space with
  | .srgb => t
  | .linearSrgb => t.map encodeSrgb
  | .displayP3 => (displayP3ToSrgb.apply (t.map decodeSrgb)).map encodeSrgb
  | .a98 => (a98ToSrgb.apply (t.map decodeA98)).map encodeSrgb
  | .prophoto => (prophotoToSrgb.apply (t.map decodeProphoto)).map encodeSrgb
  | .rec2020 => (rec2020ToSrgb.apply (t.map decodeRec2020)).map encodeSrgb
  | .xyzD50 => (xyzD50ToSrgb.apply t).map encodeSrgb
  | .xyzD65 => (xyzD65ToSrgb.apply t).map encodeSrgb
  | .lab => (linearOfLab t).map encodeSrgb
  | .lch => (linearOfLab (rectangular t)).map encodeSrgb
  | .oklab => (linearOfOklab t).map encodeSrgb
  | .oklch => (linearOfOklab (rectangular t)).map encodeSrgb
  | .hsl => srgbOfHsl t
  | .hwb => srgbOfHwb t

/-- Whether the components of a space stand for the same things as those of sRGB. -/
def Space.isRgbLike : Space → Bool
  | .lab | .lch | .oklab | .oklch | .hsl | .hwb => false
  | _ => true

end MapStyle.Color
