import MapStyle.Decimal.Layout
import MapStyle.Json.Basic
import MapStyle.Dictionary

/-!
# Features

Features as filters see them: an identifier and scalar properties.
-/

namespace MapStyle

/-- The value of a property. -/
inductive PropertyValue where
  | text (s : String)
  | number (x : Float)
  | flag (b : Bool)

namespace PropertyValue

/-- The string of a textual value; numbers and flags have none. -/
def string? : PropertyValue → Option String
  | .text s => some s
  | _ => none

def label : PropertyValue → String
  | .text s => s
  | .number x => String.ofList (Decimal.plain.write x)
  | .flag true => "true"
  | .flag false => "false"

/-- The property value of a JSON scalar; null, arrays and objects are none. -/
def ofJson? : Json → Option PropertyValue
  | .string s => some (.text s)
  | .number n => some (.number n.toFloat)
  | .bool b => some (.flag b)
  | _ => none

end PropertyValue

/-- An identifier and properties. -/
structure Feature where
  id : Option Int64
  properties : Dictionary PropertyValue

namespace Feature

/-- The feature without identifier and properties. -/
def empty : Feature := ⟨none, .empty⟩

def property? (f : Feature) (key : String) : Option PropertyValue :=
  f.properties.find? key

/-- The string of a property with a textual value. -/
def text? (f : Feature) (key : String) : Option String :=
  (f.property? key).bind PropertyValue.string?

/--
Properties from the members of a JSON object, of which those that are no scalars are left out.
-/
def propertiesOf (members : List (String × Json)) : Dictionary PropertyValue :=
  Dictionary.ofList (members.filterMap fun m => (PropertyValue.ofJson? m.2).map (m.1, ·))

end Feature

end MapStyle
