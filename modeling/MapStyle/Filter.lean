import MapStyle.Json.Record
import MapStyle.Predicate
import MapStyle.Text.Alphabetic
import MapStyle.Text.Title

/-!
# Filters

Filters over single features: what a user picks when creating a rule. A filter compiles to a
predicate, has a short label, and is offered for a feature by what the feature carries.
-/

namespace MapStyle

/-- Which features a rule is for: those with a key, those with a key and value, or a single one. -/
inductive Filter where
  | keyPresence (key : String)
  | keyValue (key value : String)
  | identity (id : Int64)
deriving DecidableEq

namespace Filter

/-- The key that stands for a feature's identifier in a filter for a key and value. -/
def idKey : String := "$id"

/--
The predicate of a filter. The key `$id` with a whole number compares identifiers; with any other
value it is a key like all others.
-/
def compile : Filter → Predicate
  | .keyPresence key => .has key
  | .keyValue key value =>
    match Text.readWord? value with
    | some id => if key = idKey then .idEquals id else .propertyEquals key value
    | none => .propertyEquals key value
  | .identity id => .idEquals id

def matches? (filter : Filter) (f : Feature) : Bool :=
  filter.compile.holds f

def label : Filter → String
  | .keyPresence key => Text.title key
  | .keyValue key value => Text.title (key ++ " " ++ value)
  | .identity id => "#" ++ Text.wordText id

/-- Keys that are never offered, in any letter case. -/
def hiddenKeys : List String := ["website", "latitude", "longitude"]

/-- Whether a key is a name in a namespace, other than a part of an address. -/
def isNamespaced (key : List Char) : Bool :=
  key.contains ':' && !"addr:".toList.isPrefixOf key

/-- Whether a key has letters and is its own upper case. -/
def isAllCaps (key : List Char) : Bool :=
  key.any Text.isAlphabetic && key.flatMap Text.upper == key

/-- Whether a key is hidden by name. -/
def isHidden (key : List Char) : Bool :=
  hiddenKeys.any fun hidden => key.map Char.toLower == hidden.toList

/--
Whether a property is worth showing: its key is not namespaced, not in capitals as import artifacts
are, and not hidden.
-/
def isDisplayable (key : String) : Bool :=
  let chars := key.toList
  !isNamespaced chars && !isAllCaps chars && !isHidden chars

def forProperty (key : String) (value : PropertyValue) : List Filter :=
  if isDisplayable key then [.keyPresence key, .keyValue key value.label] else []

/-- The filters offered for a feature: its identity, then those of its properties in key order. -/
def suggestions (f : Feature) : List Filter :=
  (f.id.map .identity).toList ++ f.properties.entries.flatMap fun p => forProperty p.1 p.2

/-- The JSON of a filter, tagged by its kind. -/
def toJson : Filter → Json
  | .keyPresence key => .object [("kind", .string "key-presence"), ("key", .string key)]
  | .keyValue key value =>
    .object [("kind", .string "key-value"), ("key", .string key), ("value", .string value)]
  | .identity id => .object [("kind", .string "identity"), ("id", .ofWord id)]

open Json

/-- A filter of a kind from the fields in either form; in an array every field has to be there. -/
def ofFields? (kind : String) (fields : List String → Option Fields) : Option Filter :=
  match kind with
  | "key-presence" => do
    let fs ← fields ["key"]
    return .keyPresence (← fs.required? "key" Tree.string?)
  | "key-value" => do
    let fs ← fields ["key", "value"]
    return .keyValue (← fs.required? "key" Tree.string?) (← fs.required? "value" Tree.string?)
  | "identity" => do
    let fs ← fields ["id"]
    return .identity (← fs.required? "id" Tree.word?)
  | _ => none

/--
A filter decoded from a tree without unusable parts: an object with the kind among its members, or
an array that begins with it.
-/
def ofTree? (t : Tree) : Option Filter := do
  let _ ← t.value?
  match t with
  | .object members =>
    let tag ← Fields.ofMembers? ["kind"] false members
    let kind ← tag.required? "kind" Tree.string?
    ofFields? kind fun names => Fields.ofMembers? names false members
  | .array (.string kind :: items) =>
    ofFields? kind fun names => Fields.ofTree? names true (.array items)
  | _ => none

end Filter

end MapStyle
