import MapStyle.Json.Reader
import MapStyle.Poi
import MapStyle.Priority
import MapStyle.Revision

/-!
# Style definitions

Style definitions: the rules in order of priority and the saved points of interest, at one revision.
A definition is never changed; every edit gives another one at the next revision.
-/

namespace MapStyle

/-- Why a definition is rejected or an edit is impossible. -/
inductive StyleError where
  | duplicateRule (id : String)
  | invalidLineWidth (id : String) (width : Float)
  | unknownRule (id : String)
  | indexOutOfRange (index length : Nat)
  | undecodable

/-- The error in words. -/
def StyleError.message : StyleError → String
  | .duplicateRule id => "duplicate rule id `" ++ id ++ "`"
  | .invalidLineWidth id width =>
    "rule `" ++ id ++ "` has invalid line width " ++ String.ofList (Decimal.plain.write width)
  | .unknownRule id => "no rule with id `" ++ id ++ "`"
  | .indexOutOfRange index length =>
    "rule index " ++ String.ofList (Text.natDigits index) ++ " is out of range for " ++
      String.ofList (Text.natDigits length) ++ " rules"
  | .undecodable => "failed to decode style definition"

/-- Rules from the lowest to the highest priority, and saved points of interest. -/
structure Definition where
  revision : Revision
  rules : List Rule
  pois : List Poi

namespace Definition

/-- The definition without rules and points of interest. -/
def empty (revision : Revision) : Definition :=
  ⟨revision, [], []⟩

def rule? (d : Definition) (id : String) : Option Rule :=
  d.rules.find? (·.id == id)

/-- The position of the rule with an identity. -/
def indexOf (d : Definition) (id : String) : Except StyleError Nat :=
  match d.rules.findIdx? (·.id == id) with
  | some i => .ok i
  | none => .error (.unknownRule id)

/-- The defect of a rule that follows rules with the given identities. -/
def ruleDefect? (earlier : List String) (r : Rule) : Option StyleError :=
  if r.id ∈ earlier then some (.duplicateRule r.id)
  else
    match r.treatment.line with
    | some line => if line.isValid then none else some (.invalidLineWidth r.id line.width)
    | none => none

/-- The first defect of rules that follow rules with the given identities. -/
def firstDefect? (earlier : List String) : List Rule → Option StyleError
  | [] => none
  | r :: rules =>
    match ruleDefect? earlier r with
    | some e => some e
    | none => firstDefect? (r.id :: earlier) rules

/-- Checks that identities are unique and line widths finite and positive. -/
def validate (d : Definition) : Except StyleError Unit :=
  match firstDefect? [] d.rules with
  | some e => .error e
  | none => .ok ()

/-- Other rules, at the next revision. -/
def withRules (d : Definition) (rules : List Rule) : Definition :=
  { d with revision := d.revision.next, rules }

/-- Adds a rule with the highest priority. -/
def addRule (d : Definition) (r : Rule) : Except StyleError Definition :=
  if (d.rule? r.id).isSome then .error (.duplicateRule r.id)
  else .ok (d.withRules (d.rules ++ [r]))

def removeRule (d : Definition) (id : String) : Except StyleError Definition := do
  let i ← d.indexOf id
  return d.withRules (d.rules.eraseIdx i)

/-- Puts a rule in the place of the one with its identity. -/
def replaceRule (d : Definition) (r : Rule) : Except StyleError Definition := do
  let i ← d.indexOf r.id
  return d.withRules (d.rules.set i r)

/-- A list with the item at one position moved to another. -/
def moveItem {α : Type} (items : List α) (source target : Nat) : List α :=
  match items[source]? with
  | some item => (items.eraseIdx source).insertIdx target item
  | none => items

/-- Moves the rule at one position to another. -/
def moveRule (d : Definition) (source target : Nat) : Except StyleError Definition :=
  let length := d.rules.length
  if length ≤ source then .error (.indexOutOfRange source length)
  else if length ≤ target then .error (.indexOutOfRange target length)
  else .ok (d.withRules (moveItem d.rules source target))

/-- Points of interest with one removed by its identity, or else put in front. -/
def togglePois (pois : List Poi) (poi : Poi) : List Poi :=
  match pois.findIdx? (·.id == poi.id) with
  | some i => pois.eraseIdx i
  | none => poi :: pois

/-- Removes the point of interest with the same identity, or else adds this one in front. -/
def togglePoi (d : Definition) (poi : Poi) : Definition :=
  { d with revision := d.revision.next, pois := togglePois d.pois poi }

/-- Other points of interest at the same revision. -/
def withPois (d : Definition) (pois : List Poi) : Definition :=
  { d with pois }

def toJson (d : Definition) : Json :=
  .object [("revision", .string d.revision.token), ("rules", .array (d.rules.map Rule.toJson)),
    ("savedPOIs", .array (d.pois.map Poi.toJson))]

open Json

/-- A definition decoded but not validated. -/
def ofTree? (t : Tree) : Option Definition := do
  let fs ← Fields.ofTree? ["revision", "rules", "savedPOIs"] false t
  return {
    revision := ⟨← fs.required? "revision" Tree.string?⟩
    rules := ← fs.required? "rules" (Tree.list? Rule.ofTree?)
    pois := ← fs.withDefault? "savedPOIs" [] (Tree.list? Poi.ofTree?) }

def load (t : Option Tree) : Except StyleError Definition :=
  match t.bind ofTree? with
  | none => .error .undecodable
  | some d => d.validate.map fun _ => d

def ofText (text : String) : Except StyleError Definition :=
  load (Tree.ofText? text)

end Definition

end MapStyle
