import MapStyle.Text.Numeral

/-!
# JSON values

JSON values. Numbers are whole or double, as their text says; members of an object stand in the
order in which they are written.
-/

namespace MapStyle

/-- A JSON number: whole if it is written without point and exponent and fits 64 bits. -/
inductive Json.Number where
  | int (n : Int)
  | float (x : Float)

/-- A JSON value. -/
inductive Json where
  | null
  | bool (b : Bool)
  | number (n : Json.Number)
  | string (s : String)
  | array (items : List Json)
  | object (members : List (String × Json))

namespace Json

/-- The double nearest to a number. -/
def Number.toFloat : Number → Float
  | .int n => Float.ofInt n
  | .float x => x

/-- A whole number as a signed word of 64 bits. -/
def Number.word? : Number → Option Int64
  | .int n => Text.word? n
  | .float _ => none

def string? : Json → Option String
  | .string s => some s
  | _ => none

def float? : Json → Option Float
  | .number n => some n.toFloat
  | _ => none

def list? {α : Type} (decode : Json → Option α) : Json → Option (List α)
  | .array items => items.mapM decode
  | _ => none

/-- A double as a value; one that is not finite has no number and becomes null. -/
def ofFloat (x : Float) : Json :=
  if x.isFinite then .number (.float x) else .null

def ofNat (n : Nat) : Json :=
  .number (.int n)

def ofWord (w : Int64) : Json :=
  .number (.int w.toInt)

def ofStrings (texts : List String) : Json :=
  .array (texts.map .string)

end Json

end MapStyle
