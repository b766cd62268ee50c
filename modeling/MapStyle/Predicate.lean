import MapStyle.Feature

/-!
# Predicates

Boolean expressions over the identifier and the properties of a feature, and their form as
expression JSON: `["has", key]`, `["==", value, ["get", key]]`, `["==", id, ["id"]]`, `["all", …]`,
`["any", …]` and `["!", expression]`.
-/

namespace MapStyle

/-- A boolean expression over one feature. -/
inductive Predicate where
  | has (key : String)
  | propertyEquals (key value : String)
  | idEquals (id : Int64)
  | all (conditions : List Predicate)
  | any (conditions : List Predicate)
  | not (condition : Predicate)

namespace Predicate

mutual

/-- Whether two predicates are the same tree. -/
def same : Predicate → Predicate → Bool
  | .has k, .has l => k == l
  | .propertyEquals k v, .propertyEquals l w => k == l && v == w
  | .idEquals i, .idEquals j => i == j
  | .all ps, .all qs => sameAll ps qs
  | .any ps, .any qs => sameAll ps qs
  | .not p, .not q => same p q
  | _, _ => false

def sameAll : List Predicate → List Predicate → Bool
  | [], [] => true
  | p :: ps, q :: qs => same p q && sameAll ps qs
  | _, _ => false

end

mutual

theorem same_iff : ∀ p q : Predicate, same p q = true ↔ p = q
  | .has k, q => by cases q <;> simp [same]
  | .propertyEquals k v, q => by cases q <;> simp [same]
  | .idEquals i, q => by cases q <;> simp [same]
  | .all ps, q => by cases q <;> simp [same, sameAll_iff ps]
  | .any ps, q => by cases q <;> simp [same, sameAll_iff ps]
  | .not p, q => by cases q <;> simp [same, same_iff p]

theorem sameAll_iff : ∀ ps qs : List Predicate, sameAll ps qs = true ↔ ps = qs
  | [], qs => by cases qs <;> simp [sameAll]
  | p :: ps, qs => by cases qs <;> simp [sameAll, same_iff p, sameAll_iff ps]

end

instance : DecidableEq Predicate := fun p q => decidable_of_iff _ (same_iff p q)

mutual

/-- Whether a predicate is true of a feature. Equality never compares a string with a number. -/
def holds (f : Feature) : Predicate → Bool
  | .has key => (f.property? key).isSome
  | .propertyEquals key value => f.text? key == some value
  | .idEquals id => f.id == some id
  | .all conditions => allHold f conditions
  | .any conditions => anyHolds f conditions
  | .not condition => !holds f condition

/-- Whether all predicates of a list are true. -/
def allHold (f : Feature) : List Predicate → Bool
  | [] => true
  | p :: ps => holds f p && allHold f ps

/-- Whether some predicate of a list is true. -/
def anyHolds (f : Feature) : List Predicate → Bool
  | [] => false
  | p :: ps => holds f p || anyHolds f ps

end

theorem allHold_eq (f : Feature) (ps : List Predicate) : allHold f ps = ps.all (holds f) := by
  induction ps with
  | nil => rfl
  | cons p ps ih => rw [allHold, ih, List.all_cons]

theorem anyHolds_eq (f : Feature) (ps : List Predicate) : anyHolds f ps = ps.any (holds f) := by
  induction ps with
  | nil => rfl
  | cons p ps ih => rw [anyHolds, ih, List.any_cons]

theorem holds_all (f : Feature) (ps : List Predicate) :
    holds f (.all ps) = ps.all (holds f) := by
  rw [holds, allHold_eq]

theorem holds_any (f : Feature) (ps : List Predicate) :
    holds f (.any ps) = ps.any (holds f) := by
  rw [holds, anyHolds_eq]

theorem holds_not (f : Feature) (p : Predicate) : holds f (.not p) = !holds f p := by
  rw [holds]

mutual

def toJson : Predicate → Json
  | .has key => .array [.string "has", .string key]
  | .propertyEquals key value =>
    .array [.string "==", .string value, .array [.string "get", .string key]]
  | .idEquals id => .array [.string "==", .ofWord id, .array [.string "id"]]
  | .all conditions => .array (.string "all" :: toJsons conditions)
  | .any conditions => .array (.string "any" :: toJsons conditions)
  | .not condition => .array [.string "!", toJson condition]

/-- The expression JSON of each predicate of a list. -/
def toJsons : List Predicate → List Json
  | [] => []
  | p :: ps => toJson p :: toJsons ps

end

end Predicate

/-- Why a JSON value is no expression. -/
inductive ExpressionError where
  | notAnExpression (found : String)
  | missingOperator
  | unsupportedOperator (operator : String)
  | malformed (operator : String)
deriving DecidableEq

/-- The error in words. -/
def ExpressionError.message : ExpressionError → String
  | .notAnExpression found => "expected an expression array, found " ++ found
  | .missingOperator => "expression is missing its operator"
  | .unsupportedOperator operator => "unsupported expression operator `" ++ operator ++ "`"
  | .malformed operator => "malformed `" ++ operator ++ "` expression"

namespace Predicate

def kindOf : Json → String
  | .null => "null"
  | .bool _ => "a boolean"
  | .number _ => "a number"
  | .string _ => "a string"
  | .array _ => "an array"
  | .object _ => "an object"

/-- The comparison of a literal with what an accessor gives. -/
def comparison? (literal accessor : Json) : Option Predicate :=
  match accessor, literal with
  | .array [.string "get", .string key], .string value => some (.propertyEquals key value)
  | .array [.string "id"], .number n => n.word?.map .idEquals
  | _, _ => none

/-- The arguments of `==`, in either order. -/
def equality (arguments : List Json) : Except ExpressionError Predicate :=
  match arguments with
  | [left, right] =>
    match (comparison? left right).or (comparison? right left) with
    | some p => .ok p
    | none => .error (.malformed "==")
  | _ => .error (.malformed "==")

mutual

/-- The predicate of expression JSON. The operands of `==` may come in either order. -/
def ofJson : Json → Except ExpressionError Predicate
  | .array (.string operator :: arguments) =>
    if operator = "has" then
      match arguments with
      | [.string key] => .ok (.has key)
      | _ => .error (.malformed operator)
    else if operator = "==" then equality arguments
    else if operator = "all" then (ofJsons arguments).map .all
    else if operator = "any" then (ofJsons arguments).map .any
    else if operator = "!" then
      match arguments with
      | [condition] => (ofJson condition).map .not
      | _ => .error (.malformed operator)
    else .error (.unsupportedOperator operator)
  | .array _ => .error .missingOperator
  | j => .error (.notAnExpression (kindOf j))

/-- The predicates of a list of expressions, or the first error. -/
def ofJsons : List Json → Except ExpressionError (List Predicate)
  | [] => .ok []
  | j :: js =>
    match ofJson j with
    | .error e => .error e
    | .ok p => (ofJsons js).map (p :: ·)

end

end Predicate

end MapStyle
