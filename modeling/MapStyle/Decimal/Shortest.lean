import MapStyle.Decimal.Binary

/-!
# Shortest decimals

The shortest decimal of a double: of the decimals that read back as the double, those with the
fewest digits, and of these the nearest to it. Whether a decimal reads back is decided exactly, by
the interval of reals that round to the double.
-/

namespace MapStyle.Decimal

/-- The number `coefficient * 10 ^ exponent`. -/
structure Numeral where
  coefficient : Nat
  exponent : Int
deriving DecidableEq

/-- Which of two equally near decimals stands for a double. -/
inductive Tie where
  | even
  | up
deriving DecidableEq

/--
The reals that round to the double `m * 2 ^ e`, in units of `2 ^ (e - 2)`: they reach halfway to
both neighbours, and below a power of two the lower neighbour is half as far. The ends belong to
them exactly if the mantissa is even.
-/
structure Interval where
  low : Nat
  value : Nat
  high : Nat
  exponent : Int
  closed : Bool

/-- The interval of the double `m * 2 ^ e` with `0 < m`. -/
def interval (m : Nat) (e : Int) : Interval where
  low := if m = 1 <<< 52 ∧ -1074 < e then 4 * m - 1 else 4 * m - 2
  value := 4 * m
  high := 4 * m + 2
  exponent := e - 2
  closed := m % 2 == 0

/-- Factors that bring a multiple of `2 ^ b` and a multiple of `10 ^ p` to one unit. -/
def scales (b p : Int) : Nat × Nat :=
  (Nat.pow 10 (-p).toNat <<< b.toNat, Nat.pow 10 p.toNat <<< (-b).toNat)

/--
The position of the decimal point of `m * 2 ^ e`: the least `n` with the value below `10 ^ n`.
-/
def pointPosition (m : Nat) (e : Int) : Int :=
  let num := m <<< e.toNat
  let den := 1 <<< (-e).toNat
  if den ≤ num then (Nat.toDigits 10 (num / den)).length
  else
    let t := (Nat.toDigits 10 (den / num)).length
    if den ≤ num * Nat.pow 10 (t - 1) then 2 - t else 1 - t

/-- The multiple of `10 ^ p` that reads back as the double and is nearest to it, if there is one. -/
def nearestOnGrid? (tie : Tie) (v : Interval) (p : Int) : Option Nat :=
  let (unit, grid) := scales v.exponent p
  let reads (d : Nat) : Bool :=
    if v.closed then v.low * unit ≤ d * grid ∧ d * grid ≤ v.high * unit
    else v.low * unit < d * grid ∧ d * grid < v.high * unit
  let d := v.value * unit / grid
  match reads d, reads (d + 1) with
  | false, false => none
  | true, false => some d
  | false, true => some (d + 1)
  | true, true =>
    match compare (2 * (v.value * unit)) ((2 * d + 1) * grid) with
    | .lt => some d
    | .gt => some (d + 1)
    | .eq => if tie = .even ∧ d % 2 = 0 then some d else some (d + 1)

/-- The number without the zeros at the end of its coefficient's digits, at most `fuel` of them. -/
def Numeral.trim (fuel : Nat) (d : Numeral) : Numeral :=
  match fuel with
  | 0 => d
  | fuel + 1 =>
    if d.coefficient % 10 = 0 then trim fuel ⟨d.coefficient / 10, d.exponent + 1⟩ else d

/--
The shortest decimal of the double `m * 2 ^ e` with `0 < m`: the first of the grids of 1, 2, … 17
digits that has a multiple in the interval. Seventeen digits always suffice.
-/
def shortest (tie : Tie) (m : Nat) (e : Int) : Numeral :=
  let n := pointPosition m e
  let v := interval m e
  let found := (List.range 17).findSome? fun k : Nat =>
    (nearestOnGrid? tie v (n - (k + 1))).map fun d => Numeral.mk d (n - (k + 1))
  (found.getD ⟨0, 0⟩).trim 17

end MapStyle.Decimal
