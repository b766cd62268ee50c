import MapStyle.Text.CodePoints

/-!
# Blanks

The Unicode property White_Space, and trimming by it.
-/

namespace MapStyle.Text

/-- The code points with the property White_Space. -/
def blankRanges : List (Nat × Nat) := [
  (0x9, 0xD), (0x20, 0x20), (0x85, 0x85), (0xA0, 0xA0), (0x1680, 0x1680), (0x2000, 0x200A),
  (0x2028, 0x2029), (0x202F, 0x202F), (0x205F, 0x205F), (0x3000, 0x3000)
]

def isBlank (c : Char) : Bool :=
  inRanges c.toNat blankRanges

/-- The text from its first to its last character that is not blank. -/
def trim (text : List Char) : List Char :=
  ((text.dropWhile isBlank).reverse.dropWhile isBlank).reverse

example : isBlank ' ' ∧ isBlank '\n' ∧ isBlank '\u00a0' ∧ ¬isBlank '\u200b' := by decide

end MapStyle.Text
