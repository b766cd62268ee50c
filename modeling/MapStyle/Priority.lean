import MapStyle.Rule

/-!
# Priority

Priority between rules. Rules are authored as filters that may overlap; a feature that several of
them match is painted by the last one only. Effective predicates say this without an order: each
rule's filter, less what a later rule matches.
-/

namespace MapStyle

/-- A rule with the predicate of the features that it paints. -/
structure EffectiveRule where
  rule : Rule
  predicate : Predicate

namespace Priority

/-- A predicate less everything that one of the later predicates matches. -/
def except (own : Predicate) (later : List Predicate) : Predicate :=
  if later.isEmpty then own else .all [own, .not (.any later)]

def filters (rules : List Rule) : List Predicate :=
  rules.map fun r => r.filter.compile

/-- Every rule, in authored order, with its effective predicate; the last rule keeps its filter. -/
def effective : List Rule → List EffectiveRule
  | [] => []
  | r :: rules => ⟨r, except r.filter.compile (filters rules)⟩ :: effective rules

/-- The predicate of the features that some rule's filter matches. -/
def anyRule (rules : List Rule) : Predicate :=
  .any (filters rules)

/-- The position of the rule that paints a feature: the last one whose filter matches. -/
def winner? (f : Feature) : List Rule → Option Nat
  | [] => none
  | r :: rules =>
    match winner? f rules with
    | some i => some (i + 1)
    | none => if r.filter.matches? f then some 0 else none

end Priority

end MapStyle
