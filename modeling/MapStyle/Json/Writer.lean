import MapStyle.Decimal.Layout
import MapStyle.Json.Basic

/-!
# Writing JSON

JSON text from values, on one line or indented by two spaces. Members are written in the order of
the value.
-/

namespace MapStyle.Json

open MapStyle.Text

/--
Doubles in JSON: from `1e-5` up to `1e16` without an exponent, and a whole one ends in `.0`, which
keeps it apart from a whole number.
-/
def doubles : Decimal.Layout where
  tie := .even
  positional point := -5 < point ∧ point ≤ 16
  marksWhole := true

/-- A number; a double that is not finite is written as null. -/
def Number.write : Number → List Char
  | .int n => intDigits n
  | .float x => if x.isFinite then doubles.write x else ['n', 'u', 'l', 'l']

def hexDigit (n : Nat) : Char :=
  Nat.digitChar n

/-- A character inside a string: quotes, backslashes and control characters are escaped. -/
def escape (c : Char) : List Char :=
  if c = '"' then ['\\', '"']
  else if c = '\\' then ['\\', '\\']
  else if c = '\x08' then ['\\', 'b']
  else if c = '\x0c' then ['\\', 'f']
  else if c = '\n' then ['\\', 'n']
  else if c = '\r' then ['\\', 'r']
  else if c = '\t' then ['\\', 't']
  else if c.toNat < 0x20 then
    ['\\', 'u', '0', '0', hexDigit (c.toNat / 16), hexDigit (c.toNat % 16)]
  else [c]

def quote (text : String) : List Char :=
  '"' :: text.toList.flatMap escape ++ ['"']

/-- The blanks that a text has between its tokens. -/
structure Spacing where
  /-- Before an item at a depth, and before the bracket that closes the depth. -/
  lineBreak : Nat → List Char
  afterColon : List Char

/-- No blanks at all. -/
def tight : Spacing where
  lineBreak _ := []
  afterColon := []

/-- One item a line, indented by two spaces for each level. -/
def indented : Spacing where
  lineBreak depth := '\n' :: List.replicate (2 * depth) ' '
  afterColon := [' ']

mutual

/-- The text of a value that stands at a depth. -/
def write (s : Spacing) (depth : Nat) : Json → List Char
  | .null => ['n', 'u', 'l', 'l']
  | .bool true => ['t', 'r', 'u', 'e']
  | .bool false => ['f', 'a', 'l', 's', 'e']
  | .number n => n.write
  | .string text => quote text
  | .array [] => ['[', ']']
  | .array (item :: items) =>
    '[' :: s.lineBreak (depth + 1) ++ write s (depth + 1) item ++ writeItems s (depth + 1) items ++
      s.lineBreak depth ++ [']']
  | .object [] => ['\x7b', '\x7d']
  | .object ((key, value) :: members) =>
    '\x7b' :: s.lineBreak (depth + 1) ++ quote key ++ ':' :: s.afterColon ++
      write s (depth + 1) value ++ writeMembers s (depth + 1) members ++ s.lineBreak depth ++
      ['\x7d']

/-- The items after the first one, each after a comma. -/
def writeItems (s : Spacing) (depth : Nat) : List Json → List Char
  | [] => []
  | item :: items => ',' :: s.lineBreak depth ++ write s depth item ++ writeItems s depth items

/-- The members after the first one, each after a comma. -/
def writeMembers (s : Spacing) (depth : Nat) : List (String × Json) → List Char
  | [] => []
  | (key, value) :: members =>
    ',' :: s.lineBreak depth ++ quote key ++ ':' :: s.afterColon ++ write s depth value ++
      writeMembers s depth members

end

def compact (j : Json) : String :=
  String.ofList (write tight 0 j)

/-- The text of a value with one item a line. -/
def pretty (j : Json) : String :=
  String.ofList (write indented 0 j)

end MapStyle.Json
