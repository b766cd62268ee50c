import MapStyle.Export
import MapStyle.Proofs.RendererLayers
import MapStyle.Proofs.VisibleParts
import Mathlib.Data.List.ReduceOption

/-!
# What an export draws and reports

The layers and the problems of an export, rule by rule and feature by feature. A feature is looked
at by every rule, but only the rule that wins it draws it or reports it, so it adds at most one node
or one problem to the whole export. An export ends exactly if clipping does on the lines that are
drawn.
-/

namespace MapStyle

open Drawing

universe u v

variable {α : Type u}

/-- The nodes of a group; other nodes have none. -/
def Drawing.Node.children : Node α → List (Node α)
  | .group _ children => children
  | _ => []

/-- The nodes in the layer of the rule at a position. -/
def Drawing.ruleGroup (d : Drawing α) (i : Nat) : List (Node α) :=
  (((d.group? Exporter.featuresLabel).getD [])[i]?.map Node.children).getD []

namespace Export

/-- The kinds of geometry that are not drawn by rules. -/
def undrawnKinds : List String :=
  ["Point", "MultiPoint", "GeometryCollection"]

/-- The features that the rule at a position wins. -/
def wonBy (rules : List Rule) (i : Nat) (features : List (MapFeature α)) : List (MapFeature α) :=
  features.filter fun f => Priority.winner? f.toFeature rules = some i

/-- What a feature adds to an export: a node in the layer of a rule, or a problem with it. -/
inductive Fate (α : Type u) where
  | drawn (rule : Nat) (node : Node α)
  | reported (rule : Nat) (problem : Diagnostic)

/-- The position of the rule at which a feature meets its fate. -/
def Fate.rule : Fate α → Nat
  | .drawn i _ => i
  | .reported i _ => i

/-- The node that is added to the layer of a rule. -/
def Fate.nodeIn? (i : Nat) : Fate α → Option (Node α)
  | .drawn j node => if j = i then some node else none
  | .reported _ _ => none

/-- The problem that is reported for a rule. -/
def Fate.problemOf? (i : Nat) : Fate α → Option Diagnostic
  | .drawn _ _ => none
  | .reported j problem => if j = i then some problem else none

lemma Fate.eq_none_of_rule_ne {fate : Fate α} {i : Nat} (h : fate.rule ≠ i) :
    fate.nodeIn? i = none ∧ fate.problemOf? i = none := by
  cases fate with
  | drawn j node => exact ⟨if_neg h, rfl⟩
  | reported j problem => exact ⟨rfl, if_neg h⟩

lemma shapeNode?_undrawn [Zero α] [One α] [Add α] [Sub α] [Neg α] [Mul α] [Div α] [LT α] [LE α]
    [DecidableLT α] [DecidableLE α] [BEq α] [Hypot α] [OfDouble α] (o : ExportOptions)
    (c : Canvas α) (t : Treatment) {s : Shape α} (h : s.typeName ∈ undrawnKinds) :
    shapeNode? o c t s = some none := by
  cases s <;> first | rfl | simp [Shape.typeName, undrawnKinds] at h

lemma claimed_eq_wonBy {rules : List Rule} {i : Nat} {e : EffectiveRule}
    (h : (Priority.effective rules)[i]? = some e) (features : List (MapFeature α)) :
    claimed e features = wonBy rules i features := by
  unfold claimed wonBy
  apply List.filter_congr
  intro f _
  rw [Bool.eq_iff_iff, Priority.holds_effective_iff h, decide_eq_true_iff]

lemma filterMap_wonBy {β : Type v} {rules : List Rule} {i : Nat} {g h : MapFeature α → Option β}
    (hwon : ∀ f, Priority.winner? f.toFeature rules = some i → g f = h f)
    (helse : ∀ f, Priority.winner? f.toFeature rules ≠ some i → h f = none)
    (features : List (MapFeature α)) :
    (wonBy rules i features).filterMap g = features.filterMap h := by
  unfold wonBy
  rw [List.filterMap_filter]
  apply List.filterMap_congr
  intro f _
  by_cases hw : Priority.winner? f.toFeature rules = some i
  · simp [hw, hwon f hw]
  · simp [hw, helse f hw]

section Nodes

variable [Zero α] [One α] [Add α] [Sub α] [Neg α] [Mul α] [Div α] [LT α] [LE α]
  [DecidableLT α] [DecidableLE α] [BEq α] [Hypot α] [OfDouble α]

lemma isSome_featureNodes?_iff (o : ExportOptions) (c : Canvas α) (t : Treatment)
    (features : List (MapFeature α)) :
    (featureNodes? o c t features).isSome = true ↔ (t.isUnstyled = false →
      ∀ f ∈ features, ∀ s ∈ lineSegments f.shape,
        (Clip.segment? c.bounds s.1 s.2).isSome = true) := by
  unfold featureNodes?
  cases t.isUnstyled with
  | true => simp
  | false =>
    rw [if_neg Bool.false_ne_true, Option.isSome_map, isSome_mapM_iff]
    simp only [isSome_shapeNode?_iff, isSome_visibleParts?_iff, forall_const]

/-- The nodes of features, if all of them are clipped. -/
lemma eq_of_featureNodes? {o : ExportOptions} {c : Canvas α} {t : Treatment}
    {features : List (MapFeature α)} {nodes : List (Node α)}
    (h : featureNodes? o c t features = some nodes) :
    nodes = if t.isUnstyled then []
      else features.filterMap fun f => (shapeNode? o c t f.shape).join := by
  unfold featureNodes? at h
  split at h
  · next hunstyled => rw [if_pos hunstyled, Option.some.inj h]
  · next hstyled =>
    obtain ⟨own, hown, rfl⟩ := Option.map_eq_some_iff.mp h
    rw [if_neg hstyled]
    exact filterMap_of_mapM hown id

lemma exists_of_mem_featureNodes? {o : ExportOptions} {c : Canvas α} {t : Treatment}
    {features : List (MapFeature α)} {nodes : List (Node α)} {n : Node α}
    (h : featureNodes? o c t features = some nodes) (hn : n ∈ nodes) :
    ∃ f ∈ features, shapeNode? o c t f.shape = some (some n) := by
  rw [eq_of_featureNodes? h] at hn
  split at hn
  · cases hn
  · obtain ⟨f, hf, hnode⟩ := List.mem_filterMap.mp hn
    exact ⟨f, hf, Option.join_eq_some_iff.mp hnode⟩

end Nodes

end Export

open Export

namespace Exporter

variable [Zero α] [One α] [Add α] [Sub α] [Neg α] [Mul α] [Div α] [LT α] [LE α]
  [DecidableLT α] [DecidableLE α] [BEq α] [Hypot α] [OfDouble α]

/-! ### Exports that end -/

/-- An export ends if and only if all segments of lines are clipped that a rule that paints
draws. -/
theorem isSome_run?_iff (e : Exporter) (c : Canvas α) (d : Definition)
    (features : List (MapFeature α)) :
    (e.run? c d features).isSome = true ↔
      ∀ (i : Nat) (r : Rule), d.rules[i]? = some r → r.treatment.isUnstyled = false →
        ∀ f ∈ wonBy d.rules i features, ∀ s ∈ lineSegments f.shape,
          (Clip.segment? c.bounds s.1 s.2).isSome = true := by
  rw [run?, Option.isSome_map, featuresLayer?, Option.isSome_map, isSome_mapM_iff]
  simp only [ruleLayer?, Option.isSome_map, isSome_featureNodes?_iff]
  constructor
  · intro h i r hr
    obtain ⟨er, her, rfl⟩ := Priority.exists_effective hr
    rw [← claimed_eq_wonBy her]
    exact h er (List.mem_of_getElem? her)
  · intro h er her
    obtain ⟨i, her⟩ := List.mem_iff_getElem?.mp her
    rw [claimed_eq_wonBy her]
    exact h i er.rule (Priority.rule_of_effective her)

lemma exists_run?_of_within {e : Exporter} {c : Canvas α} {d : Definition}
    {features : List (MapFeature α)} (cuts : Nat)
    (h : ∀ f ∈ features, ∀ s ∈ lineSegments f.shape,
      (Clip.segmentWithin? c.bounds cuts s.1 s.2).isSome = true) :
    ∃ x, e.run? c d features = some x := by
  rw [← Option.isSome_iff_exists, isSome_run?_iff]
  intro i r _ _ f hf s hs
  have hwithin := h f (List.mem_of_mem_filter hf) s hs
  rwa [Clip.segment?_eq_of_isSome hwithin]

lemma run?_eq_some_iff {e : Exporter} {c : Canvas α} {d : Definition}
    {features : List (MapFeature α)} {x : Export α} :
    e.run? c d features = some x ↔ ∃ layers,
      (Priority.effective d.rules).mapM (ruleLayer? e.options c features) = some layers ∧
        ⟨e.drawingOf c d (.group (.layer featuresLabel) layers), e.diagnose d features⟩ = x := by
  simp only [run?, featuresLayer?, Option.map_eq_some_iff, exists_exists_and_eq_and]

section Ended

variable {e : Exporter} {c : Canvas α} {d : Definition} {features : List (MapFeature α)}
  {x : Export α}

lemma size_of_run? (h : e.run? c d features = some x) : x.drawing.size = c.size := by
  obtain ⟨layers, -, rfl⟩ := run?_eq_some_iff.mp h
  rfl

/-- The layers of rules in an export. -/
lemma exists_layers (h : e.run? c d features = some x) :
    ∃ layers : List (Node α), x.drawing.group? featuresLabel = some layers ∧
      layers.length = d.rules.length ∧
      ∀ (i : Nat) (r : Rule), d.rules[i]? = some r →
        ∃ nodes, layers[i]? = some (.group (.layer r.filter.label) nodes) ∧
          featureNodes? e.options c r.treatment (wonBy d.rules i features) = some nodes := by
  obtain ⟨layers, hlayers, rfl⟩ := run?_eq_some_iff.mp h
  refine ⟨layers, rfl, ?_, fun i r hr => ?_⟩
  · rw [length_of_mapM hlayers, Priority.length_effective]
  · obtain ⟨er, her, rfl⟩ := Priority.exists_effective hr
    obtain ⟨layer, hlayer, hmade⟩ := exists_getElem?_of_mapM hlayers her
    rw [ruleLayer?, claimed_eq_wonBy her] at hmade
    obtain ⟨nodes, hnodes, rfl⟩ := Option.map_eq_some_iff.mp hmade
    exact ⟨nodes, hlayer, hnodes⟩

lemma featureNodes?_of_run? (h : e.run? c d features = some x) {i : Nat} {r : Rule}
    (hr : d.rules[i]? = some r) :
    featureNodes? e.options c r.treatment (wonBy d.rules i features) =
      some (x.drawing.ruleGroup i) := by
  obtain ⟨layers, hgroup, -, hlayers⟩ := exists_layers h
  obtain ⟨nodes, hlayer, hnodes⟩ := hlayers i r hr
  rw [hnodes, Drawing.ruleGroup, hgroup, Option.getD_some, hlayer]
  rfl

lemma ruleGroup_eq_nil (h : e.run? c d features = some x) {i : Nat}
    (hi : d.rules[i]? = none) : x.drawing.ruleGroup i = [] := by
  obtain ⟨layers, hgroup, hlength, -⟩ := exists_layers h
  rw [List.getElem?_eq_none_iff, ← hlength, ← List.getElem?_eq_none_iff] at hi
  rw [Drawing.ruleGroup, hgroup, Option.getD_some, hi]
  rfl

end Ended

/-! ### Fates -/

/-- What becomes of a feature, if it is clipped in the end. It is left out if no rule wins it, if
that rule paints nothing, or if nothing of its shape is visible. -/
def fate? (e : Exporter) (c : Canvas α) (rules : List Rule) (f : MapFeature α) :
    Option (Option (Fate α)) :=
  match Priority.winner? f.toFeature rules with
  | none => some none
  | some i =>
    match rules[i]? with
    | none => some none
    | some r =>
      if r.treatment.isUnstyled then some none
      else if f.shape.typeName ∈ undrawnKinds then
        some (some (.reported i (.unsupportedGeometry r.id f.id f.shape.typeName)))
      else (shapeNode? e.options c r.treatment f.shape).map (Option.map (.drawn i))

lemma fate?_of_winner (e : Exporter) (c : Canvas α) {rules : List Rule} {i : Nat} {r : Rule}
    (h : rules[i]? = some r) {f : MapFeature α}
    (hw : Priority.winner? f.toFeature rules = some i) :
    e.fate? c rules f =
      if r.treatment.isUnstyled then some none
      else if f.shape.typeName ∈ undrawnKinds then
        some (some (.reported i (.unsupportedGeometry r.id f.id f.shape.typeName)))
      else (shapeNode? e.options c r.treatment f.shape).map (Option.map (.drawn i)) := by
  simp only [fate?, hw, h]

/-- A feature meets its fate at the rule that wins it. -/
lemma winner?_of_fate? {e : Exporter} {c : Canvas α} {rules : List Rule} {f : MapFeature α}
    {fate : Fate α} (h : e.fate? c rules f = some (some fate)) :
    Priority.winner? f.toFeature rules = some fate.rule := by
  unfold fate? at h
  cases hw : Priority.winner? f.toFeature rules with
  | none => simp [hw] at h
  | some i =>
    obtain ⟨r, hr⟩ := Priority.exists_rule_of_winner? hw
    simp only [hw, hr] at h
    split at h
    · cases h
    · split at h
      · cases h
        rfl
      · obtain ⟨node?, -, hnode⟩ := Option.map_eq_some_iff.mp h
        obtain ⟨node, -, rfl⟩ := Option.map_eq_some_iff.mp hnode
        rfl

lemma fate_elsewhere {e : Exporter} {c : Canvas α} {rules : List Rule} {f : MapFeature α} {i : Nat}
    (hw : Priority.winner? f.toFeature rules ≠ some i) :
    ((e.fate? c rules f).bind fun fate => fate.bind (Fate.nodeIn? i)) = none ∧
      ((e.fate? c rules f).bind fun fate => fate.bind (Fate.problemOf? i)) = none := by
  rcases hfate : e.fate? c rules f with _ | _ | fate
  · exact ⟨rfl, rfl⟩
  · exact ⟨rfl, rfl⟩
  · refine Fate.eq_none_of_rule_ne fun hrule => hw ?_
    rw [← hrule]
    exact winner?_of_fate? hfate

section Ended

variable {e : Exporter} {c : Canvas α} {d : Definition} {features : List (MapFeature α)}
  {x : Export α}

lemma ruleGroup_eq_fates (h : e.run? c d features = some x) (i : Nat) :
    x.drawing.ruleGroup i = features.filterMap fun f =>
      (e.fate? c d.rules f).bind fun fate => fate.bind (Fate.nodeIn? i) := by
  cases hr : d.rules[i]? with
  | none =>
    symm
    rw [ruleGroup_eq_nil h hr, List.filterMap_eq_nil_iff]
    intro f _
    apply (fate_elsewhere _).1
    intro hw
    obtain ⟨r, hr'⟩ := Priority.exists_rule_of_winner? hw
    simp [hr] at hr'
  | some r =>
    have hgroup : x.drawing.ruleGroup i = (wonBy d.rules i features).filterMap fun f =>
        if r.treatment.isUnstyled then none
        else (shapeNode? e.options c r.treatment f.shape).join := by
      rw [eq_of_featureNodes? (featureNodes?_of_run? h hr)]
      split <;> simp
    rw [hgroup]
    apply filterMap_wonBy
    · intro f hw
      rw [fate?_of_winner e c hr hw]
      split
      · rfl
      · split
        · next hkind =>
          rw [shapeNode?_undrawn e.options c r.treatment hkind]
          rfl
        · rcases shapeNode? e.options c r.treatment f.shape with _ | _ | node <;>
            simp [Fate.nodeIn?]
    · exact fun f hw => (fate_elsewhere hw).1

end Ended

/-- A motorway that runs through the unit square. -/
def motorwayLine : MapFeature Float where
  toFeature := Renderer.motorway
  shape := .lineString [[0.25, 0.25], [0.5, 0.75]]
  source := none
  sourceLayer := none

/-- The unit square as it is. -/
def unitCanvas : Canvas Float := ⟨id, ⟨0.0, 0.0, 1.0, 1.0⟩⟩

/-- An exporter without icons. -/
def plainExporter : Exporter := ⟨.default, .empty, .estimate⟩

/-- A motorway junction, which is not drawn. -/
def junction : MapFeature Float :=
  { motorwayLine with shape := .point [0.5, 0.5] }

lemma line?_motorwayLine : Clip.line? unitCanvas.bounds (Shape.places [[0.25, 0.25], [0.5, 0.75]]) =
    some [[⟨0.25, 0.25⟩, ⟨0.5, 0.75⟩]] :=
  Clip.line?_of_lineWithin? 0 (by decide +kernel)

/-- Neither of the two is cut. -/
lemma exists_run?_motorway (d : Definition) {features : List (MapFeature Float)}
    (h : features ⊆ [motorwayLine, junction]) :
    ∃ x, plainExporter.run? unitCanvas d features = some x := by
  have hwithin : ∀ f ∈ [motorwayLine, junction], ∀ s ∈ lineSegments f.shape,
      (Clip.segmentWithin? unitCanvas.bounds 0 s.1 s.2).isSome = true := by
    decide +kernel
  exact exists_run?_of_within 0 fun f hf => hwithin f (h hf)

end Exporter

end MapStyle
