import MapStyle.Decimal.Reading
import MapStyle.Json.Tree

/-!
# Reading JSON

JSON texts read as trees. A reader takes the text that is left and returns what it read with the
text after it, or nothing if the text is malformed.
-/

namespace MapStyle.Json.Reader

/-- The blanks that may stand between tokens. -/
def isBlank (c : Char) : Bool :=
  c == ' ' || c == '\n' || c == '\t' || c == '\r'

def skipBlanks (text : List Char) : List Char :=
  text.dropWhile isBlank

/-- The value of a hexadecimal digit in either letter case. -/
def hexValue? (c : Char) : Option Nat :=
  if '0' ≤ c ∧ c ≤ '9' then some (c.toNat - 48)
  else if 'a' ≤ c ∧ c ≤ 'f' then some (c.toNat - 87)
  else if 'A' ≤ c ∧ c ≤ 'F' then some (c.toNat - 55)
  else none

/-- The code unit written with four hexadecimal digits. -/
def codeUnit? (a b c d : Char) : Option Nat := do
  return 4096 * (← hexValue? a) + 256 * (← hexValue? b) + 16 * (← hexValue? c) + (← hexValue? d)

/-- The character that a backslash and a letter stand for. -/
def escaped? (c : Char) : Option Char :=
  if c = '"' ∨ c = '\\' ∨ c = '/' then some c
  else if c = 'b' then some '\x08'
  else if c = 'f' then some '\x0c'
  else if c = 'n' then some '\n'
  else if c = 'r' then some '\r'
  else if c = 't' then some '\t'
  else none

/--
The characters of a string as numbers, up to the closing quote: a character is its code point, an
escape `\u` its code unit. `read` holds the numbers read so far, the last one first.
-/
def scanString? (read : List Nat) : List Char → Option (List Nat × List Char)
  | [] => none
  | '"' :: rest => some (read.reverse, rest)
  | '\\' :: 'u' :: a :: b :: c :: d :: rest =>
    match codeUnit? a b c d with
    | some n => scanString? (n :: read) rest
    | none => none
  | '\\' :: c :: rest =>
    match escaped? c with
    | some e => scanString? (e.toNat :: read) rest
    | none => none
  | c :: rest => if c.toNat < 0x20 ∨ c = '\\' then none else scanString? (c.toNat :: read) rest

/-- Whether a code unit is the first half of a surrogate pair. -/
def isHighSurrogate (n : Nat) : Bool :=
  0xD800 ≤ n && n < 0xDC00

/-- Whether a code unit is the second half of a surrogate pair. -/
def isLowSurrogate (n : Nat) : Bool :=
  0xDC00 ≤ n && n < 0xE000

/-- The characters of a string, its surrogate pairs joined, unless half a pair stands alone. -/
def joinUnits? (read : List Char) : List Nat → Option (List Char)
  | [] => some read.reverse
  | high :: low :: rest =>
    if isHighSurrogate high then
      if isLowSurrogate low then
        joinUnits? (Char.ofNat (0x10000 + 1024 * (high - 0xD800) + (low - 0xDC00)) :: read) rest
      else none
    else if isLowSurrogate high then none
    else joinUnits? (Char.ofNat high :: read) (low :: rest)
  | [n] =>
    if isHighSurrogate n || isLowSurrogate n then none else some (Char.ofNat n :: read).reverse

/-- A string after its opening quote, and its text unless half a surrogate pair stands alone. -/
def string? (text : List Char) : Option (Option String × List Char) :=
  (scanString? [] text).map fun (units, rest) => ((joinUnits? [] units).map String.ofList, rest)

/-- A whole number within 64 bits as such, any other as a double. -/
def wholeNumber (negative : Bool) (digits : List Char) : Number :=
  let n := Nat.ofDigitChars 10 digits 0
  if negative then
    if n ≠ 0 ∧ n ≤ UInt64.size / 2 then .int (-n) else .float (Decimal.ofDigits true digits [] 0)
  else if n < UInt64.size then .int n else .float (Decimal.ofDigits false digits [] 0)

/-- A number as a tree: one beyond the range of doubles denotes no value. -/
def usable : Number → Tree
  | .int n => .number (.int n)
  | .float x => if x.isFinite then .number (.float x) else .unusable

/-- A point and at least one digit, if there is a point. -/
def fraction? : List Char → Option (Option (List Char) × List Char)
  | '.' :: rest => (Decimal.scanDigits? rest).map fun (digits, rest) => (some digits, rest)
  | text => some (none, text)

/-- An exponent, if there is a letter that announces one. -/
def exponent? : List Char → Option (Option Int × List Char)
  | [] => some (none, [])
  | c :: rest =>
    if c = 'e' ∨ c = 'E' then
      (Decimal.scanExponent? (c :: rest)).map fun (e, rest) => (some e, rest)
    else some (none, c :: rest)

/-- The digits before a point: a zero alone, or digits without a zero in front. -/
def whole? : List Char → Option (List Char × List Char)
  | '0' :: rest => some (['0'], rest)
  | text => Decimal.scanDigits? text

/-- The number of a text by its parts: without fraction and exponent it is whole. -/
def ofParts (negative : Bool) (whole : List Char) : Option (List Char) → Option Int → Number
  | none, none => wholeNumber negative whole
  | fraction, exponent =>
    .float (Decimal.ofDigits negative whole (fraction.getD []) (exponent.getD 0))

/-- A number after its sign: digits, then a fraction and an exponent. -/
def unsigned? (negative : Bool) (text : List Char) : Option (Tree × List Char) := do
  let (whole, rest) ← whole? text
  let (fraction, rest) ← fraction? rest
  let (exponent, rest) ← exponent? rest
  return (usable (ofParts negative whole fraction exponent), rest)

def number? : List Char → Option (Tree × List Char)
  | '-' :: rest => unsigned? true rest
  | text => unsigned? false text

/-- A container, which is unusable if there is no room for another level. -/
def container (room : Nat) (t : Tree) : Tree :=
  if room = 0 then .unusable else t

/-- An object, which is unusable if a key is. -/
def object (members : List (Option String × Tree)) : Tree :=
  match members.mapM fun m => m.1.map (·, m.2) with
  | some members => .object members
  | none => .unusable

mutual

/--
A value, with `room` for that many nested levels. The fuel bounds the number of nested calls; twice
the length of the text is enough.
-/
def value? (fuel room : Nat) (text : List Char) : Option (Tree × List Char) :=
  match fuel with
  | 0 => none
  | fuel + 1 =>
    match skipBlanks text with
    | 'n' :: 'u' :: 'l' :: 'l' :: rest => some (.null, rest)
    | 't' :: 'r' :: 'u' :: 'e' :: rest => some (.bool true, rest)
    | 'f' :: 'a' :: 'l' :: 's' :: 'e' :: rest => some (.bool false, rest)
    | '"' :: rest => (string? rest).map fun (s, rest) => ((s.map .string).getD .unusable, rest)
    | '[' :: rest =>
      match skipBlanks rest with
      | ']' :: rest => some (container room (.array []), rest)
      | rest => (items? fuel (room - 1) [] rest).map fun (ts, rest) =>
        (container room (.array ts), rest)
    | '\x7b' :: rest =>
      match skipBlanks rest with
      | '\x7d' :: rest => some (container room (.object []), rest)
      | rest => (members? fuel (room - 1) [] rest).map fun (ms, rest) =>
        (container room (object ms), rest)
    | rest => number? rest

/--
The items of an array up to its closing bracket; `read` holds those before, the last one first.
-/
def items? (fuel room : Nat) (read : List Tree) (text : List Char) :
    Option (List Tree × List Char) :=
  match fuel with
  | 0 => none
  | fuel + 1 =>
    match value? fuel room text with
    | none => none
    | some (t, rest) =>
      match skipBlanks rest with
      | ',' :: rest => items? fuel room (t :: read) rest
      | ']' :: rest => some ((t :: read).reverse, rest)
      | _ => none

/-- The members of an object up to its closing brace; `read` holds those before. -/
def members? (fuel room : Nat) (read : List (Option String × Tree)) (text : List Char) :
    Option (List (Option String × Tree) × List Char) :=
  match fuel with
  | 0 => none
  | fuel + 1 =>
    match skipBlanks text with
    | '"' :: rest =>
      match string? rest with
      | none => none
      | some (key, rest) =>
        match skipBlanks rest with
        | ':' :: rest =>
          match value? fuel room rest with
          | none => none
          | some (t, rest) =>
            match skipBlanks rest with
            | ',' :: rest => members? fuel room ((key, t) :: read) rest
            | '\x7d' :: rest => some (((key, t) :: read).reverse, rest)
            | _ => none
        | _ => none
    | _ => none

end

end Reader

/-- The number of nested arrays and objects that a text may have. -/
def maxDepth : Nat := 127

/-- The tree of a text that holds one value and nothing else. -/
def Tree.ofText? (text : String) : Option Tree :=
  let chars := text.toList
  match Reader.value? (2 * chars.length + 2) maxDepth chars with
  | some (t, rest) => if (Reader.skipBlanks rest).isEmpty then some t else none
  | none => none

/-- The value of a text that holds one value and nothing else. -/
def ofText? (text : String) : Option Json :=
  (Tree.ofText? text).bind Tree.value?

end MapStyle.Json
