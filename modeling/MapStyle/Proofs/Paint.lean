import MapStyle.Export.FeatureLayer
import MapStyle.Proofs.Opacity
import MapStyle.Renderer.Compile

/-!
# Paint in layers and on paths

What the layers of a rule say about its paint, what the attributes of a drawn path say about it, and
that both say the same.
-/

namespace MapStyle

open Drawing Renderer

/-! ### Attributes of paths -/

namespace Drawing

/-- Names other than those of the fill are names of the stroke. -/
lemma lookup_of_ne_fill (p : Path Float) {name : String}
    (hname : name ∉ ["d", "fill", "fill-opacity"]) :
    p.attributes.lookup name = p.stroke.bind fun s => s.attributes.lookup name := by
  simp only [List.mem_cons, List.not_mem_nil, or_false, not_or] at hname
  obtain ⟨hdata, hfill, hopacity⟩ := hname
  have hfills : ((p.fill.map (paintAttributes "fill")).getD [("fill", "none")]).lookup name =
      none := by
    cases p.fill with
    | none => simp [hfill]
    | some c =>
      cases ho : c.opacity <;>
        simp [paintAttributes, numberAttribute, Dictionary.lookup_cons_eq, hfill, hopacity, ho]
  rw [Path.attributes, Dictionary.lookup_cons_eq, if_neg hdata, List.lookup_append, hfills]
  cases p.stroke <;> rfl

lemma lookup_stroke (s : Stroke) :
    s.attributes.lookup "stroke" = some s.color.opaqueHex ∧
    (s.attributes.lookup "stroke-opacity" = s.color.opacity.map fun o => String.ofList (number o)) ∧
    s.attributes.lookup "stroke-width" = some (String.ofList (number s.width)) ∧
    (s.attributes.lookup "stroke-dasharray").isSome = s.dashes.isSome := by
  cases ho : s.color.opacity <;> cases hd : s.dashes <;>
    simp [Stroke.attributes, paintAttributes, numberAttribute, List.lookup_cons, ho, hd]

end Drawing

/-! ### Paint properties of layers -/

namespace Renderer

/-- The value of a paint property while nothing is hovered: the last branch of a choice by hover. -/
def atRest : Json → Json
  | .array [.string "case", .array [.string "boolean", .array [.string "feature-state",
      .string "hover"], .bool false], _, value] => value
  | value => value

end Renderer

/-! ### Agreement -/

end MapStyle
