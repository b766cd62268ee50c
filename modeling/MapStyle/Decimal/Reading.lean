import MapStyle.Text.Numeral

/-!
# Decimal text read as doubles

Doubles read from decimal text, correctly rounded.
-/

namespace MapStyle.Decimal

open MapStyle.Text

/-- The double nearest to the decimal with these digits before and after the point. -/
def ofDigits (negative : Bool) (whole fraction : List Char) (exponent : Int) : Float :=
  let scale := exponent - fraction.length
  let x := Float.ofScientific (Nat.ofDigitChars 10 (whole ++ fraction) 0) (scale < 0) scale.natAbs
  if negative then -x else x

/-- The digits at the start of a text, of which there has to be one, with the text after them. -/
def scanDigits? (text : List Char) : Option (List Char × List Char) :=
  let (digits, rest) := text.span Char.isDigit
  if digits.isEmpty then none else some (digits, rest)

def scanSign : List Char → Bool × List Char
  | '-' :: rest => (true, rest)
  | '+' :: rest => (false, rest)
  | text => (false, text)

/-- The exponent of a decimal, with the text after it: `e`, an optional sign and digits. -/
def scanExponent? : List Char → Option (Int × List Char)
  | [] => none
  | c :: rest =>
    if c = 'e' ∨ c = 'E' then
      let (negative, rest) := scanSign rest
      (scanDigits? rest).map fun (digits, rest) =>
        let n : Int := Nat.ofDigitChars 10 digits 0
        (if negative then -n else n, rest)
    else none

/-- Digits with an optional point among or around them, with the text after them. -/
def scanMantissa (text : List Char) : List Char × List Char × List Char :=
  let (whole, rest) := text.span Char.isDigit
  match rest with
  | '.' :: rest =>
    let (fraction, rest) := rest.span Char.isDigit
    (whole, fraction, rest)
  | _ => (whole, [], rest)

/--
A whole text as a double: an optional sign, then digits with an optional point and exponent, or a
name of infinity or of no number in any letter case.
-/
def read? (text : List Char) : Option Float :=
  let (negative, text) := scanSign text
  let signed (x : Float) := if negative then -x else x
  let name := String.ofList (text.map Char.toLower)
  if name = "inf" ∨ name = "infinity" then some (signed (1.0 / 0.0))
  else if name = "nan" then some (signed (0.0 / 0.0))
  else
    let (whole, fraction, rest) := scanMantissa text
    if whole.isEmpty ∧ fraction.isEmpty then none
    else if rest.isEmpty then some (ofDigits negative whole fraction 0)
    else match scanExponent? rest with
      | some (exponent, []) => some (ofDigits negative whole fraction exponent)
      | _ => none

end MapStyle.Decimal
