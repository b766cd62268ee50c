import MapStyle.Text.Blank
import MapStyle.Text.LetterCase

/-!
# Titles

Title case for labels: `natural_water` reads `Natural Water`.
-/

namespace MapStyle.Text

/-- Title case from a point where a word does or does not start. -/
def titleFrom (wordStart : Bool) : List Char → List Char
  | [] => []
  | c :: rest =>
    let c := if c = '_' then ' ' else c
    (if wordStart then upper c else lower c) ++ titleFrom (isBlank c || c == '-') rest

/--
Underscores become spaces; the character after a blank or a hyphen, and the first one, is put in
upper case and every other in lower case.
-/
def title (text : String) : String :=
  String.ofList (titleFrom true text.toList)

end MapStyle.Text
