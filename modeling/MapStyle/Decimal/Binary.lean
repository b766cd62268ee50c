/-!
# Doubles taken apart

Doubles taken apart into sign, mantissa and binary exponent, and rounded to whole numbers exactly.
-/

namespace MapStyle.Decimal

/-- What a double denotes; a finite one is `± mantissa * 2 ^ exponent`. -/
inductive Parts where
  | nan
  | infinite (negative : Bool)
  | finite (negative : Bool) (mantissa : Nat) (exponent : Int)

/-- Whether a sign is the negative one. -/
def isNegative : Float.Model.UnpackedFloat.Sign → Bool
  | .negative => true
  | .positive => false

/-- The parts of a double. The mantissa is below `2 ^ 53`, and a zero has mantissa 0. -/
def parts (x : Float) : Parts :=
  match x.toModel.unpack with
  | .notANumber => .nan
  | .infinity s => .infinite (isNegative s)
  | .zero s => .finite (isNegative s) 0 0
  | .finite s m e _ => .finite (isNegative s) m e

/-- The double nearest to `n * 2 ^ e`. Below the point, halves are tenths of fives. -/
def ofScaled (n : Nat) (e : Int) : Float :=
  if 0 ≤ e then Float.ofNat (n <<< e.toNat)
  else Float.ofScientific (n * Nat.pow 5 (-e).toNat) true (-e).toNat

/-- The whole number nearest to `m / 2 ^ k`; a half goes up. -/
def halfUp (m k : Nat) : Nat :=
  if k = 0 then m else (m + 1 <<< (k - 1)) >>> k

/-- The nearest whole number as a double; a half goes away from zero. -/
def round (x : Float) : Float :=
  match parts x with
  | .finite negative m e =>
    if 0 ≤ e then x
    else
      let n := Float.ofNat (halfUp m (-e).toNat)
      if negative then -n else n
  | _ => x

end MapStyle.Decimal
