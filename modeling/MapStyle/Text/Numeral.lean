/-!
# Whole numbers in decimal text

Whole numbers in decimal text. Writing has no leading zeros; reading takes any number of them and a
plus sign, and an identifier has to fit a signed word of 64 bits. Main statement: what is written
reads back.
-/

namespace MapStyle.Text

/-- The decimal digits of a number, most significant first. -/
def natDigits (n : Nat) : List Char :=
  Nat.toDigits 10 n

/-- A whole number, with a minus sign if it is negative. -/
def intDigits : Int → List Char
  | .ofNat n => natDigits n
  | .negSucc n => '-' :: natDigits (n + 1)

/-- The value of a non-empty text of ASCII digits. -/
def readDigits? (text : List Char) : Option Nat :=
  if text ≠ [] ∧ text.all Char.isDigit then some (Nat.ofDigitChars 10 text 0) else none

/-- Digits, after an optional plus sign. -/
def readNat? : List Char → Option Nat
  | '+' :: rest => readDigits? rest
  | text => readDigits? text

/-- Digits, after an optional sign. -/
def readInt? : List Char → Option Int
  | '-' :: rest => (readDigits? rest).map fun n => -(n : Int)
  | text => (readNat? text).map Int.ofNat

/-- A whole number as a signed word of 64 bits, if it fits. -/
def word? (n : Int) : Option Int64 :=
  if Int64.minValue.toInt ≤ n ∧ n ≤ Int64.maxValue.toInt then some (Int64.ofInt n) else none

/-- The signed word of 64 bits that a text denotes. -/
def readWord? (text : String) : Option Int64 :=
  (readInt? text.toList).bind word?

/-- A signed word of 64 bits in decimal. -/
def wordText (w : Int64) : String :=
  String.ofList (intDigits w.toInt)

theorem readDigits?_natDigits (n : Nat) : readDigits? (natDigits n) = some n := by
  rw [readDigits?, if_pos, natDigits, Nat.ofDigitChars_ten_toDigits]
  refine ⟨Nat.toDigits_ne_nil, List.all_eq_true.2 fun c hc => ?_⟩
  exact Nat.isDigit_of_mem_toDigits (by decide) (by decide) hc

theorem natDigits_ne_cons {n : Nat} {c : Char} {rest : List Char} (hc : c.isDigit = false) :
    natDigits n ≠ c :: rest := by
  intro h
  have hmem : c ∈ natDigits n := h ▸ List.mem_cons_self
  have := Nat.isDigit_of_mem_toDigits (by decide) (by decide) hmem
  simp [hc] at this

theorem readNat?_natDigits (n : Nat) : readNat? (natDigits n) = some n := by
  rw [readNat?.eq_2, readDigits?_natDigits]
  exact fun rest h => natDigits_ne_cons (by decide) h

theorem readInt?_intDigits (n : Int) : readInt? (intDigits n) = some n := by
  cases n with
  | ofNat n =>
    rw [intDigits, readInt?.eq_2, readNat?_natDigits, Option.map_some]
    exact fun rest h => natDigits_ne_cons (by decide) h
  | negSucc n =>
    rw [intDigits, readInt?, readDigits?_natDigits]
    rfl

theorem word?_toInt (w : Int64) : word? w.toInt = some w := by
  have hlo := w.minValue_le_toInt
  have hhi := w.toInt_le
  rw [word?, if_pos ⟨hlo, hhi⟩, Int64.ofInt_toInt]

theorem readWord?_wordText (w : Int64) : readWord? (wordText w) = some w := by
  rw [readWord?, wordText, String.toList_ofList, readInt?_intDigits]
  exact word?_toInt w

end MapStyle.Text
