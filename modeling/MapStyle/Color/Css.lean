import MapStyle.Color.Named
import MapStyle.Color.Space
import MapStyle.Decimal.Reading
import MapStyle.Text.Blank

/-!
# Colors in CSS

Colors from CSS text: hexadecimal, by name, and by the color functions in modern and legacy form.
-/

namespace MapStyle.Color

/-- Why a text is no color. -/
inductive ParseError where
  | hexDigitCount
  | unknownForm
  | unknownName
  | missingArguments
  | unknownComponent
  | unknownAngle
  | unknownAngleUnit
  | missingComma
  | missingSpaceName
  | unknownSpace
  | missingParenthesis
  | trailingText
deriving DecidableEq

/-- The reason in words. -/
def ParseError.reason : ParseError → String
  | .hexDigitCount => "wrong number of hex digits"
  | .unknownForm => "unknown color syntax"
  | .unknownName => "unknown color identifier"
  | .missingArguments => "expected arguments"
  | .unknownComponent => "unknown color component"
  | .unknownAngle => "unknown angle"
  | .unknownAngleUnit => "unknown angle dimension"
  | .missingComma => "expected comma"
  | .missingSpaceName => "expected color space identifier"
  | .unknownSpace => "unknown color space"
  | .missingParenthesis => "expected closing parenthesis"
  | .trailingText => "expected end of string"

namespace Css

/-- A reader takes what it reads off the text that is left. -/
abbrev Reader := StateT (List Char) (Except ParseError)

/-- The text after the end of the comment that it is in. -/
def afterComment? : List Char → Option (List Char)
  | [] => none
  | '*' :: '/' :: rest => some rest
  | _ :: rest => afterComment? rest

/-- The text without the blanks and closed comments in front. The fuel is the length of the text. -/
def skipSpaceFrom (fuel : Nat) (text : List Char) : List Char :=
  match fuel with
  | 0 => text
  | fuel + 1 =>
    match text with
    | '/' :: '*' :: rest =>
      match afterComment? rest with
      | some rest => skipSpaceFrom fuel rest
      | none => text
    | c :: rest =>
      if c = ' ' ∨ c = '\t' ∨ c = '\r' ∨ c = '\n' then skipSpaceFrom fuel rest else text
    | [] => text

/-- The text without the blanks and closed comments in front. -/
def skipSpace (text : List Char) : List Char :=
  skipSpaceFrom text.length text

/-- The text without the closed comments in front. The fuel is the length of the text. -/
def skipCommentsFrom (fuel : Nat) (text : List Char) : List Char :=
  match fuel with
  | 0 => text
  | fuel + 1 =>
    match text with
    | '/' :: '*' :: rest =>
      match afterComment? rest with
      | some rest => skipCommentsFrom fuel rest
      | none => text
    | _ => text

/-- The text without the closed comments in front. -/
def skipComments (text : List Char) : List Char :=
  skipCommentsFrom text.length text

/-- The text after a mark, if it begins with the mark. An open comment is no slash. -/
def mark? (mark : Char) : List Char → Option (List Char)
  | '/' :: '*' :: _ => none
  | c :: rest => if c = mark then some rest else none
  | [] => none

/-- Whether a character may stand in an identifier at a place where digits may. -/
def isIdentifierChar (c : Char) : Bool :=
  c.isAlphanum || c == '_' || c == '-'

/-- How many characters an identifier takes from the text. -/
def identifierLength : List Char → Nat
  | [] => 0
  | [c] => if isIdentifierChar c && !c.isDigit then 1 else 0
  | c :: d :: rest =>
    if !isIdentifierChar c || c.isDigit then 0
    else if !isIdentifierChar d || (c == '-' && d.isDigit) then 1
    else 2 + (rest.takeWhile isIdentifierChar).length

/--
An identifier in ASCII: it begins neither with a digit nor with two hyphens, and is no hyphen.
-/
def identifier? (text : List Char) : Option (String × List Char) :=
  let n := identifierLength text
  let name := text.take n
  if (name.take 2).all (· == '-') then none else some (String.ofList name, text.drop n)

/-- The longest identifier that is compared without regard to letter case. -/
def maxFolded : Nat := 32

def foldCase (name : String) : String :=
  if name.length ≤ maxFolded then name.map Char.toLower else name

/-- A number: digits with an optional fraction and exponent. -/
def number? (text : List Char) : Option (Float × List Char) :=
  let (negative, rest) := Decimal.scanSign text
  let (whole, rest) := rest.span Char.isDigit
  let (fraction, rest) := match rest with
    | '.' :: after =>
      match after.span Char.isDigit with
      | ([], _) => ([], rest)
      | (digits, after) => (digits, after)
    | _ => ([], rest)
  if whole.isEmpty && fraction.isEmpty then none
  else
    match Decimal.scanExponent? rest with
    | some (exponent, rest) => some (Decimal.ofDigits negative whole fraction exponent, rest)
    | none => some (Decimal.ofDigits negative whole fraction 0, rest)

/-- An argument of a color function. -/
inductive Argument where
  | number (x : Float)
  | percent (x : Float)
  | dimension (x : Float) (unit : String)
  | word (name : String)

/-- The next argument. -/
def argument? (text : List Char) : Option (Argument × List Char) :=
  match number? text with
  | some (x, '%' :: rest) => some (.percent x, rest)
  | some (x, rest) =>
    match identifier? rest with
    | some (unit, rest) => some (.dimension x unit, rest)
    | none => some (.number x, rest)
  | none => (identifier? text).map fun (name, rest) => (.word name, rest)

/-- Whether a word says that a component is missing. -/
def isNone (name : String) : Bool :=
  name.map Char.toLower == "none"

/-- A component, by the factors of a number and of a percentage; `none` is a missing one. -/
def component (factor percentFactor : Float) : Reader (Option Float) := fun text =>
  match argument? (skipSpace text) with
  | some (.number x, rest) => .ok (some (x * factor), rest)
  | some (.percent x, rest) => .ok (some (x * percentFactor), rest)
  | some (.word name, rest) => if isNone name then .ok (none, rest) else .error .unknownComponent
  | _ => .error .unknownComponent

def degreesOf? (unit : String) : Option Float :=
  match foldCase unit with
  | "deg" => some 1.0
  | "rad" => some (180.0 / 3.141592653589793)
  | "grad" => some 0.9
  | "turn" => some 360.0
  | _ => none

/-- An angle in degrees; `none` is a missing one. -/
def angle : Reader (Option Float) := fun text =>
  match argument? (skipSpace text) with
  | some (.number x, rest) => .ok (some x, rest)
  | some (.word name, rest) => if isNone name then .ok (none, rest) else .error .unknownAngle
  | some (.dimension x unit, rest) =>
    match degreesOf? unit with
    | some factor => .ok (some (x * factor), rest)
    | none => .error .unknownAngleUnit
  | _ => .error .unknownAngle

def clamp (low high x : Float) : Float :=
  if x < low then low else if high < x then high else x

def clamped (low high factor percentFactor : Float) : Reader (Option Float) := do
  return (← component factor percentFactor).map (clamp low high)

def nonnegative (factor percentFactor : Float) : Reader (Option Float) := do
  return (← component factor percentFactor).map fun x => if x < 0.0 then 0.0 else x

/-- Whether a mark comes next, after what is skipped; if so it is read. -/
def acceptAfter (skip : List Char → List Char) (mark : Char) : Reader Bool := fun text =>
  match mark? mark (skip text) with
  | some rest => .ok (true, rest)
  | none => .ok (false, text)

/-- Whether a mark comes next; if so it is read. -/
def accept : Char → Reader Bool :=
  acceptAfter skipSpace

/-- Alpha after its separator; a color without one is opaque. -/
def opacity (separator : Char) : Reader (Option Float) := do
  if ← accept separator then clamped 0.0 1.0 1.0 0.01 else return some 1.0

/-- A color as it is written: components in a space, with some of them missing, and alpha. -/
structure Written where
  space : Space
  first : Option Float
  second : Option Float
  third : Option Float
  alpha : Option Float

/-- A component in single precision; a missing one counts as zero. -/
def narrow (x : Option Float) : Float32 :=
  (x.getD 0.0).toFloat32

/--
The color that a text describes. A component that is missing stays zero in a space whose components
stand for the same things.
-/
def Written.color (w : Written) : Color :=
  let t := w.space.toSrgb ⟨narrow w.first, narrow w.second, narrow w.third⟩
  let keep (given : Option Float) (x : Float32) : Float32 :=
    if given.isNone && w.space != .srgb && w.space.isRgbLike then 0.0 else x
  ⟨keep w.first t.x, keep w.second t.y, keep w.third t.z, narrow w.alpha⟩

/-- Three arguments without commas, alpha after a slash, and the closing parenthesis. -/
def modernForm (space : Space) (first second third : Reader (Option Float)) : Reader Written := do
  let a ← first
  let b ← second
  let c ← third
  let w := ⟨space, a, b, c, ← opacity '/'⟩
  if ← accept ')' then return w else throw .missingParenthesis

/--
Three arguments and alpha, separated by commas if one follows the first argument, after what may be
skipped there.
-/
def eitherForm (space : Space) (skip : List Char → List Char)
    (first second third : Reader (Option Float)) : Reader Written := do
  let a ← first
  let legacy ← acceptAfter skip ','
  let b ← second
  if legacy then
    unless ← accept ',' do throw .missingComma
  let c ← third
  let w := ⟨space, a, b, c, ← opacity (if legacy then ',' else '/')⟩
  if ← accept ')' then return w else throw .missingParenthesis

/-- The color spaces of the function `color`, by name. -/
def space? : String → Option Space
  | "srgb" => some .srgb
  | "srgb-linear" => some .linearSrgb
  | "display-p3" => some .displayP3
  | "a98-rgb" => some .a98
  | "prophoto-rgb" => some .prophoto
  | "rec2020" => some .rec2020
  | "xyz" => some .xyzD65
  | "xyz-d65" => some .xyzD65
  | "xyz-d50" => some .xyzD50
  | _ => none

def spaceName : Reader Space := fun text =>
  match identifier? (skipSpace text) with
  | none => .error .missingSpaceName
  | some (name, rest) =>
    match space? (foldCase name) with
    | none => .error .unknownSpace
    | some space => .ok (space, rest)

/-- The arguments of the function `color`: a space, then its components. -/
def inSpace : Reader Written := do
  let space ← spaceName
  modernForm space (component 1.0 0.01) (component 1.0 0.01) (component 1.0 0.01)

/--
The arguments of a color function by its name. No blank may stand between a hue and the comma after
it.
-/
def function? : String → Option (Reader Written)
  | "rgb" | "rgba" =>
    let channel := clamped 0.0 1.0 (1.0 / 255.0) 0.01
    some (eitherForm .srgb skipSpace channel channel channel)
  | "hsl" | "hsla" =>
    some (eitherForm .hsl skipComments angle (nonnegative 1.0 1.0) (component 1.0 1.0))
  | "hwb" => some (modernForm .hwb angle (component 1.0 1.0) (component 1.0 1.0))
  | "lab" =>
    some (modernForm .lab (clamped 0.0 100.0 1.0 1.0) (component 1.0 1.25) (component 1.0 1.25))
  | "lch" => some (modernForm .lch (clamped 0.0 100.0 1.0 1.0) (nonnegative 1.0 1.25) angle)
  | "oklab" =>
    some (modernForm .oklab (clamped 0.0 1.0 1.0 0.01) (component 1.0 0.004) (component 1.0 0.004))
  | "oklch" => some (modernForm .oklch (clamped 0.0 1.0 1.0 0.01) (nonnegative 1.0 0.004) angle)
  | "color" => some inSpace
  | _ => none

def isHexDigit (c : Char) : Bool :=
  c.isDigit || ('a' ≤ c && c ≤ 'f') || ('A' ≤ c && c ≤ 'F')

def hexValue (c : Char) : Nat :=
  if c.isDigit then c.toNat - 48 else if c.toNat < 97 then c.toNat - 55 else c.toNat - 87

def hexPair (a b : Char) : UInt8 :=
  UInt8.ofNat (16 * hexValue a + hexValue b)

def ofHexDigits? : List Char → Option Color
  | [r, g, b] => some (ofRgb8 (hexPair r r) (hexPair g g) (hexPair b b))
  | [r, g, b, a] => some (ofRgba8 ⟨hexPair r r, hexPair g g, hexPair b b, hexPair a a⟩)
  | [r, r', g, g', b, b'] => some (ofRgb8 (hexPair r r') (hexPair g g') (hexPair b b'))
  | [r, r', g, g', b, b', a, a'] =>
    some (ofRgba8 ⟨hexPair r r', hexPair g g', hexPair b b', hexPair a a'⟩)
  | _ => none

/-- The digits after a number sign, at most eight of them. -/
def hexColor : Reader Color := fun text =>
  let digits := (text.take 8).takeWhile isHexDigit
  match ofHexDigits? digits with
  | some c => .ok (c, text.drop digits.length)
  | none => .error .hexDigitCount

/-- A color by name or by a function. -/
def nameOrFunction : Reader Color := fun text =>
  match identifier? text with
  | none => .error .unknownForm
  | some (name, rest) =>
    let name := foldCase name
    match function? name with
    | some arguments =>
      match rest with
      | '(' :: rest => (arguments rest).map fun (w, rest) => (w.color, rest)
      | _ => .error .missingArguments
    | none =>
      match named? name with
      | some c => .ok (c, rest)
      | none => .error .unknownName

end Css

/-- The color that a text between blanks describes. -/
def ofCss (text : String) : Except ParseError Color := do
  let (c, rest) ← match Text.trim text.toList with
    | '#' :: digits => Css.hexColor digits
    | text => Css.nameOrFunction text
  if rest.isEmpty then return c else throw .trailingText

/-- What is said of a text that is no color. -/
def ParseError.message (e : ParseError) (text : String) : String :=
  "invalid color `" ++ text ++ "`: " ++ e.reason

end MapStyle.Color
