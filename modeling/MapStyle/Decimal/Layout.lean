import MapStyle.Decimal.Shortest
import MapStyle.Text.Numeral

/-!
# Doubles in decimal text

Doubles in decimal text, by their shortest decimal. A layout holds what formats decide differently:
which numbers are written positionally, whether a whole number is marked as a double, and which of
two equally near decimals is taken.
-/

namespace MapStyle.Decimal

open MapStyle.Text

/-- The decisions of a format that writes doubles. -/
structure Layout where
  tie : Tie
  /-- Whether a number with its decimal point at this position is written without an exponent. -/
  positional : Int → Bool
  /-- Whether a whole number ends in `.0`. -/
  marksWhole : Bool

/-- A row of zeros. -/
def zeros (n : Nat) : List Char :=
  List.replicate n '0'

/-- Digits with the decimal point at a position, which may lie outside of them. -/
def withPoint (marksWhole : Bool) (digits : List Char) (point : Int) : List Char :=
  if point ≤ 0 then '0' :: '.' :: zeros (-point).toNat ++ digits
  else if digits.length ≤ point then
    digits ++ zeros (point.toNat - digits.length) ++ if marksWhole then ['.', '0'] else []
  else digits.take point.toNat ++ '.' :: digits.drop point.toNat

/-- Digits as a number from 1 to 10 times a power of ten. -/
def withExponent (digits : List Char) (point : Int) : List Char :=
  let fraction := if digits.length ≤ 1 then [] else '.' :: digits.drop 1
  let exponent := point - 1
  let sign := if exponent < 0 then '-' else '+'
  digits.take 1 ++ fraction ++ 'e' :: sign :: natDigits exponent.natAbs

/-- The text of `m * 2 ^ e`. -/
def Layout.magnitude (l : Layout) (m : Nat) (e : Int) : List Char :=
  if m = 0 then '0' :: if l.marksWhole then ['.', '0'] else []
  else
    let d := shortest l.tie m e
    let digits := natDigits d.coefficient
    let point := digits.length + d.exponent
    if l.positional point then withPoint l.marksWhole digits point else withExponent digits point

/-- The text of a double. Only a finite one has digits. -/
def Layout.write (l : Layout) (x : Float) : List Char :=
  match parts x with
  | .nan => ['N', 'a', 'N']
  | .infinite negative => (if negative then ['-'] else []) ++ ['i', 'n', 'f']
  | .finite negative m e => (if negative then ['-'] else []) ++ l.magnitude m e

/-- Numbers in labels, messages and drawings: never an exponent, and a whole number is unmarked. -/
def plain : Layout where
  tie := .up
  positional _ := true
  marksWhole := false

end MapStyle.Decimal
