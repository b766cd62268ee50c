import MapStyle.Dictionary
import MapStyle.Json.Basic

/-!
# JSON trees

JSON texts as trees. A tree keeps what a value has lost: repeated members, and parts that are well
formed but denote no value, which are an error only where somebody looks at them.
-/

namespace MapStyle.Json

/--
A JSON text as it is written. An unusable part is a number beyond the range of doubles, a string
with half of a surrogate pair, an object with such a key, or an array or object nested too deeply.
-/
inductive Tree where
  | null
  | bool (b : Bool)
  | number (n : Number)
  | string (s : String)
  | array (items : List Tree)
  | object (members : List (String × Tree))
  | unusable

namespace Tree

mutual

/-- The value of a tree without unusable parts: of members with one key the last one counts. -/
def value? : Tree → Option Json
  | .null => some .null
  | .bool b => some (.bool b)
  | .number n => some (.number n)
  | .string s => some (.string s)
  | .array items => (values? items).map .array
  | .object members => (memberValues? members).map fun ms => .object (Dictionary.ofList ms).entries
  | .unusable => none

def values? : List Tree → Option (List Json)
  | [] => some []
  | item :: items => do return (← value? item) :: (← values? items)

/-- The values of all members, in the order of the text. -/
def memberValues? : List (String × Tree) → Option (List (String × Json))
  | [] => some []
  | (key, item) :: members => do return (key, ← value? item) :: (← memberValues? members)

end

mutual

def ofJson : Json → Tree
  | .null => .null
  | .bool b => .bool b
  | .number n => .number n
  | .string s => .string s
  | .array items => .array (ofItems items)
  | .object members => .object (ofMembers members)

def ofItems : List Json → List Tree
  | [] => []
  | item :: items => ofJson item :: ofItems items

def ofMembers : List (String × Json) → List (String × Tree)
  | [] => []
  | (key, item) :: members => (key, ofJson item) :: ofMembers members

end

end Tree

end MapStyle.Json
