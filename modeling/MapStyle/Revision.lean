import MapStyle.Text.Numeral

/-!
# Revisions

Revision tokens. A token is any text; its successor counts up the number after the last hyphen, or
appends a first one.
-/

namespace MapStyle

/-- The version of a style definition. -/
structure Revision where
  token : String
deriving DecidableEq

namespace Revision

/-- The text before and after the last hyphen, if there is one. -/
def splitLast? (text : List Char) : Option (List Char × List Char) :=
  let (after, before) := text.reverse.span (· != '-')
  match before with
  | [] => none
  | _ :: before => some (before.reverse, after.reverse)

/-- The first counter beyond those that a token may hold. -/
def counterBound : Nat := UInt64.size

/-- The successor of a token's text. A counter that would leave 64 bits is not counted up. -/
def nextText (text : List Char) : List Char :=
  let appended := text ++ ['-', '1']
  match splitLast? text with
  | none => appended
  | some (base, counter) =>
    match Text.readNat? counter with
    | none => appended
    | some n =>
      if n + 1 < counterBound then base ++ '-' :: Text.natDigits (n + 1) else appended

def next (r : Revision) : Revision :=
  ⟨String.ofList (nextText r.token.toList)⟩

end Revision

end MapStyle
