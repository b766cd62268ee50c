/-!
# Cutting texts

Texts cut at the occurrences of other texts, and into the words between separators.
-/

namespace MapStyle.Text

/-- The text before and after the first occurrence of `mark`. -/
def cutFirst? (mark : List Char) : List Char → Option (List Char × List Char)
  | [] => if mark.isEmpty then some ([], []) else none
  | c :: rest =>
    if mark.isPrefixOf (c :: rest) then some ([], (c :: rest).drop mark.length)
    else (cutFirst? mark rest).map fun parts => (c :: parts.1, parts.2)

/-- The text before and after the last occurrence of `mark`. -/
def cutLast? (mark : List Char) : List Char → Option (List Char × List Char)
  | [] => if mark.isEmpty then some ([], []) else none
  | c :: rest =>
    match cutLast? mark rest with
    | some (before, after) => some (c :: before, after)
    | none =>
      if mark.isPrefixOf (c :: rest) then some ([], (c :: rest).drop mark.length) else none

/-- The text between the separators before, between and after its words, empty ones included. -/
def fields (separates : Char → Bool) : List Char → List (List Char)
  | [] => [[]]
  | c :: rest =>
    if separates c then [] :: fields separates rest
    else
      match fields separates rest with
      | [] => [[c]]
      | word :: words => (c :: word) :: words

/-- The words between separators, of which several may stand together. -/
def words (separates : Char → Bool) (text : List Char) : List (List Char) :=
  (fields separates text).filter fun word => !word.isEmpty

end MapStyle.Text
