import MapStyle.Filter
import MapStyle.Treatment

/-!
# Rules

Style rules: a filter and the paint for what it matches, under an identity of the caller's choice.
-/

namespace MapStyle

/-- A filter and the treatment of the features that it claims. -/
structure Rule where
  id : String
  filter : Filter
  treatment : Treatment

namespace Rule

/-- A rule that paints nothing. -/
def plain (id : String) (filter : Filter) : Rule :=
  ⟨id, filter, .unstyled⟩

/-- The width of the stroke that a new rule has. -/
def suggestedWidth : Float := 5.0

/-- A new rule for a suggested filter: a solid red line. -/
def suggested (id : String) (filter : Filter) : Rule :=
  ⟨id, filter, ⟨some ⟨suggestedWidth, .pureRed, false⟩, none⟩⟩

def withLine (r : Rule) (line : Line) : Rule :=
  { r with treatment := { r.treatment with line := some line } }

def withFill (r : Rule) (fill : Fill) : Rule :=
  { r with treatment := { r.treatment with fill := some fill } }

def withoutLine (r : Rule) : Rule :=
  { r with treatment := { r.treatment with line := none } }

def withoutFill (r : Rule) : Rule :=
  { r with treatment := { r.treatment with fill := none } }

/-- The JSON of a rule; a line or fill that it does not have is left out. -/
def toJson (r : Rule) : Json :=
  .object ([("id", .string r.id), ("filter", r.filter.toJson)] ++
    (r.treatment.line.map fun l => ("line", l.toJson)).toList ++
    (r.treatment.fill.map fun f => ("fill", f.toJson)).toList)

open Json

/--
A rule decoded. It is a closed record, so that a misspelled or foreign treatment is an error and
does not make an unstyled rule.
-/
def ofTree? (t : Tree) : Option Rule := do
  let fs ← Fields.ofTree? ["id", "filter", "line", "fill"] true t
  return {
    id := ← fs.required? "id" Tree.string?
    filter := ← fs.required? "filter" Filter.ofTree?
    treatment := {
      line := ← fs.withDefault? "line" none (Tree.nullable? Line.ofTree?)
      fill := ← fs.withDefault? "fill" none (Tree.nullable? Fill.ofTree?) } }

end Rule

end MapStyle
