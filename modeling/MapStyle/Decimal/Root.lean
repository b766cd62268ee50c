import MapStyle.Decimal.Binary

/-!
# Rounded square roots

Square roots of whole numbers rounded to doubles once, and with them the diagonals of rectangles.
-/

namespace MapStyle.Decimal

/-- The bits of a root that are computed, more than a double can hold. -/
def rootBits : Int := 64

/--
The double nearest to `√n * 2 ^ e`. The whole root of a suitable multiple of `n` gives the leading
bits, and a last bit stands for what it leaves over.
-/
def root (n : Nat) (e : Int) : Float :=
  let shift := rootBits - n.log2 / 2
  let up := 2 * shift.toNat
  let down := 2 * (-shift).toNat
  let r := Nat.sqrt (n <<< up >>> down)
  let rest := if (r * r) <<< down = n <<< up then 0 else 1
  ofScaled (2 * r + rest) (e - shift - 1)

/-- The double nearest to the diagonal of a rectangle; an infinite side outweighs one unknown. -/
def hypotenuse (x y : Float) : Float :=
  match parts x, parts y with
  | .infinite _, _ => 1.0 / 0.0
  | _, .infinite _ => 1.0 / 0.0
  | .nan, _ => 0.0 / 0.0
  | _, .nan => 0.0 / 0.0
  | .finite _ m d, .finite _ n e =>
    let low := min d e
    let a := m <<< (d - low).toNat
    let b := n <<< (e - low).toNat
    root (a * a + b * b) low

end MapStyle.Decimal
