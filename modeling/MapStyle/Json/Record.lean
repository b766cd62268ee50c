import MapStyle.Json.Tree

/-!
# Records in JSON

Records decoded from JSON trees. A record has named fields in a fixed order and is written as an
object or, by position, as an array. In an object no known field may be repeated; members that are
not fields are ignored, whatever they hold, unless the record is closed. In an array fields may be
missing at the end only.
-/

namespace MapStyle.Json

/-- The fields that a text gives, by name. -/
abbrev Fields := List (String × Tree)

namespace Fields

/--
The fields among the members of an object: none may be repeated, and a closed record has no other.
-/
def ofMembers? (names : List String) (closed : Bool) : List (String × Tree) → Option Fields
  | [] => some []
  | (key, t) :: members => do
    let fields ← ofMembers? names closed members
    if key ∈ names then
      if key ∈ fields.map Prod.fst then none else some ((key, t) :: fields)
    else if closed then none
    else some fields

/-- The fields of a record in either form. -/
def ofTree? (names : List String) (closed : Bool) : Tree → Option Fields
  | .object members => ofMembers? names closed members
  | .array items => if items.length ≤ names.length then some (names.zip items) else none
  | _ => none

variable {α : Type}

def required? (fields : Fields) (name : String) (decode : Tree → Option α) : Option α :=
  (fields.lookup name).bind decode

/-- A field with a value to take where it is missing. -/
def withDefault? (fields : Fields) (name : String) (default : α) (decode : Tree → Option α) :
    Option α :=
  match fields.lookup name with
  | some t => decode t
  | none => some default

end Fields

namespace Tree

variable {α : Type}

/-- Null as the absence of a value. -/
def nullable? (decode : Tree → Option α) : Tree → Option (Option α)
  | .null => some none
  | t => (decode t).map some

def string? : Tree → Option String
  | .string s => some s
  | _ => none

def bool? : Tree → Option Bool
  | .bool b => some b
  | _ => none

def float? : Tree → Option Float
  | .number n => some n.toFloat
  | _ => none

def byte? : Tree → Option UInt8
  | .number (.int n) => if 0 ≤ n ∧ n < 256 then some (UInt8.ofNat n.toNat) else none
  | _ => none

/-- A whole number that fits a signed word of 64 bits. -/
def word? : Tree → Option Int64
  | .number n => n.word?
  | _ => none

def list? (decode : Tree → Option α) : Tree → Option (List α)
  | .array items => items.mapM decode
  | _ => none

/-- The members of an object as a dictionary; of members with one key the last one counts. -/
def dictionary? (decode : Tree → Option α) : Tree → Option (Dictionary α)
  | .object members =>
    (members.mapM fun m => (decode m.2).map (m.1, ·)).map Dictionary.ofList
  | _ => none

/-- The name of a choice without content: a string, or an object whose only member is null. -/
def choice? : Tree → Option String
  | .string s => some s
  | .object [(s, .null)] => some s
  | _ => none

end Tree

end MapStyle.Json
