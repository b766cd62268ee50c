import MapStyle.Export
import MapStyle.Proofs.DefinitionText
import MapStyle.Proofs.RendererLayers

/-!
# Saving and loading a definition changes nothing visible

A definition that is saved and loaded again has rounded colors. Every output shows colors by their
rounded components only, so that renderer styles, exports and the saved text stay the same. Colors
have no part in clipping, so that exports end for both definitions or for none.
-/

namespace MapStyle

open Drawing Export Json Renderer

/-! ### Renderer styles -/

def EffectiveRule.rounded (e : EffectiveRule) : EffectiveRule :=
  { e with rule := e.rule.rounded }

lemma filters_rounded (rules : List Rule) :
    Priority.filters (rules.map Rule.rounded) = Priority.filters rules := by
  simp [Priority.filters, Function.comp_def, Rule.rounded]

lemma effective_rounded (rules : List Rule) :
    Priority.effective (rules.map Rule.rounded) =
      (Priority.effective rules).map EffectiveRule.rounded := by
  induction rules with
  | nil => rfl
  | cons r rules ih =>
    rw [List.map_cons, Priority.effective, Priority.effective, ih, filters_rounded]
    rfl

lemma isUnstyled_rounded (t : Treatment) : t.rounded.isUnstyled = t.isUnstyled := by
  simp [Treatment.isUnstyled, Treatment.rounded]

lemma validate_rounded (d : Definition) : d.rounded.validate = d.validate := by
  have hrule (earlier : List String) (r : Rule) :
      Definition.ruleDefect? earlier r.rounded = Definition.ruleDefect? earlier r := by
    cases h : r.treatment.line <;>
      simp [Definition.ruleDefect?, Rule.rounded, Treatment.rounded, Line.rounded, Line.isValid, h]
  have hrules (earlier : List String) (rules : List Rule) :
      Definition.firstDefect? earlier (rules.map Rule.rounded) =
        Definition.firstDefect? earlier rules := by
    induction rules generalizing earlier with
    | nil => rfl
    | cons r rules ih =>
      rw [List.map_cons, Definition.firstDefect?, Definition.firstDefect?, hrule, ih]
      rfl
  unfold Definition.validate
  rw [Definition.rounded, hrules]

lemma fillPaint_rounded (c : Config) (f : Fill) : c.fillPaint f.rounded = c.fillPaint f := by
  simp [Config.fillPaint, Fill.rounded]

lemma linePaint_rounded (c : Config) (l : Line) : c.linePaint l.rounded = c.linePaint l := by
  have hcolor : l.rounded.color = l.color.rounded := rfl
  unfold Config.linePaint
  rw [hcolor, Color.opaqueHex_rounded, Color.opacity_rounded]
  rfl

lemma ruleLayers_rounded (c : Config) (e : EffectiveRule) :
    c.ruleLayers e.rounded = c.ruleLayers e := by
  have hfill (f : Fill) : c.paintLayer e.rounded (.fill f.rounded) = c.paintLayer e (.fill f) := by
    rw [Config.paintLayer, fillPaint_rounded]
    rfl
  have hline (l : Line) : c.paintLayer e.rounded (.line l.rounded) = c.paintLayer e (.line l) := by
    rw [Config.paintLayer, linePaint_rounded]
    rfl
  have htreatment : e.rounded.rule.treatment = e.rule.treatment.rounded := rfl
  unfold Config.ruleLayers Treatment.paints
  rw [htreatment, Treatment.rounded]
  cases e.rule.treatment.fill <;> cases e.rule.treatment.line <;> simp [hfill, hline]

theorem compile_rounded (c : Config) (d : Definition) : compile c d.rounded = compile c d := by
  have hlayers : c.layers d.rounded = c.layers d := by
    have hrules : d.rounded.rules = d.rules.map Rule.rounded := rfl
    have hpois : d.rounded.pois = d.pois := rfl
    have hghosts : c.ghostLayers (d.rules.map Rule.rounded) = c.ghostLayers d.rules := by
      rw [Config.ghostLayers, Config.ghostLayers, Priority.anyRule, filters_rounded]
      rfl
    have hpainted : ((Priority.effective d.rules).map EffectiveRule.rounded).flatMap c.ruleLayers =
        (Priority.effective d.rules).flatMap c.ruleLayers := by
      rw [List.flatMap_map]
      exact congrArg (fun f => List.flatMap f _) (funext fun e => ruleLayers_rounded c e)
    rw [Config.layers, Config.layers, hrules, hpois, hghosts, effective_rounded, hpainted]
  unfold compile
  rw [validate_rounded, hlayers]

/-! ### Exports -/

namespace Drawing

def Stroke.rounded (s : Stroke) : Stroke :=
  { s with color := s.color.rounded }

def Path.rounded {α : Type} (p : Path α) : Path α :=
  { p with fill := p.fill.map Color.rounded, stroke := p.stroke.map Stroke.rounded }

lemma paintAttributes_rounded (name : String) (c : Color) :
    paintAttributes name c.rounded = paintAttributes name c := by
  simp [paintAttributes]

lemma attributes_rounded (p : Path Float) : p.rounded.attributes = p.attributes := by
  have hstroke (s : Stroke) : s.rounded.attributes = s.attributes := by
    simp [Stroke.attributes, Stroke.rounded, paintAttributes_rounded]
  simp [Path.attributes, Path.rounded, Path.data, Function.comp_def, hstroke,
    paintAttributes_rounded]

lemma markup_rounded (p : Path Float) : (Node.path p.rounded).markup = (Node.path p).markup := by
  rw [Node.markup, Node.markup, attributes_rounded]

lemma markupOf_eq_map (nodes : List (Node Float)) : markupOf nodes = nodes.map Node.markup := by
  induction nodes with
  | nil => rfl
  | cons node nodes ih => rw [markupOf, ih, List.map_cons]

/-- The markup of groups is that of their nodes. -/
lemma markup_group_congr (head : GroupHead Float) {nodes? others? : Option (List (Node Float))}
    (h : nodes?.map (List.map Node.markup) = others?.map (List.map Node.markup)) :
    (nodes?.map (Node.group head)).map Node.markup =
      (others?.map (Node.group head)).map Node.markup := by
  have hmarkup : Node.markup ∘ Node.group head =
      Markup.element "g" head.attributes ∘ List.map Node.markup := by
    funext nodes
    exact congrArg _ (markupOf_eq_map nodes)
  rw [Option.map_map, Option.map_map, hmarkup, ← Option.map_map, h, Option.map_map]

end Drawing

namespace Export

variable (o : ExportOptions) (c : Canvas Float) (t : Treatment)

lemma strokeOf_rounded (l : Line) : strokeOf l.rounded = (strokeOf l).rounded := rfl

lemma path?_rounded (points : List (Point Float)) :
    path? o c t.rounded points = (path? o c t points).map Path.rounded := by
  have hclosed : t.rounded.fill.isSome = t.fill.isSome := by simp [Treatment.rounded]
  unfold path?
  rw [hclosed, Option.map_map]
  apply congrArg (fun f => Option.map f _)
  funext steps
  simp [Path.rounded, Treatment.rounded, Function.comp_def, strokeOf_rounded, Fill.rounded]

lemma linePaths?_rounded (line : List (List Float)) :
    linePaths? o c t.rounded line = (linePaths? o c t line).map (List.map Path.rounded) := by
  unfold linePaths?
  rw [Option.map_map]
  apply congrArg (fun f => Option.map f _)
  funext pieces
  rw [Function.comp_apply, List.map_filterMap]
  exact congrArg (fun f => List.filterMap f pieces) (funext (path?_rounded o c t))

lemma ringPaths_rounded (rings : List (List (List Float))) :
    ringPaths o c t.rounded rings = (ringPaths o c t rings).map Path.rounded := by
  unfold ringPaths
  rw [List.map_filterMap]
  exact congrArg (fun f => List.filterMap f _) (funext fun ring => path?_rounded o c t _)

lemma markup_group?_congr {nodes others : List (Node Float)}
    (h : nodes.map Node.markup = others.map Node.markup) :
    (group? nodes).map Node.markup = (group? others).map Node.markup := by
  have hempty : nodes.isEmpty = others.isEmpty := by
    rw [← List.isEmpty_map (f := Node.markup), h, List.isEmpty_map]
  unfold group?
  rw [hempty]
  split
  · rfl
  · simp [Node.markup, markupOf_eq_map, h]

lemma markup_pathGroup?_rounded (paths : List (Path Float)) :
    (pathGroup? (paths.map Path.rounded)).map Node.markup =
      (pathGroup? paths).map Node.markup := by
  apply markup_group?_congr
  simp [Function.comp_def, markup_rounded]

lemma markup_lineNode?_rounded (paths : List (Path Float)) :
    (lineNode? (paths.map Path.rounded)).map Node.markup =
      (lineNode? paths).map Node.markup := by
  match paths with
  | [] => rfl
  | [path] => exact congrArg some (markup_rounded path)
  | first :: second :: paths => exact markup_pathGroup?_rounded (first :: second :: paths)

lemma markup_shapeNode?_rounded (s : Shape Float) :
    (shapeNode? o c t.rounded s).map (Option.map Node.markup) =
      (shapeNode? o c t s).map (Option.map Node.markup) := by
  cases s with
  | lineString line =>
    rw [shapeNode?, shapeNode?, linePaths?_rounded, Option.map_map, Option.map_map, Option.map_map]
    exact congrArg (fun f => Option.map f _) (funext markup_lineNode?_rounded)
  | multiLineString lines =>
    have hpaths : linePaths? o c t.rounded =
        fun line => (linePaths? o c t line).map (List.map Path.rounded) :=
      funext (linePaths?_rounded o c t)
    rw [shapeNode?, shapeNode?, hpaths, mapM_map, Option.map_map, Option.map_map, Option.map_map]
    apply congrArg (fun f => Option.map f _)
    funext paths
    simp only [Function.comp_apply, ← List.map_flatten]
    exact markup_pathGroup?_rounded paths.flatten
  | polygon rings =>
    rw [shapeNode?, shapeNode?, ringPaths_rounded]
    exact congrArg some (markup_pathGroup?_rounded _)
  | multiPolygon polygons =>
    unfold shapeNode?
    apply congrArg some
    apply markup_group?_congr
    rw [List.map_filterMap, List.map_filterMap]
    apply congrArg (fun f => List.filterMap f _)
    funext rings
    rw [ringPaths_rounded]
    exact markup_pathGroup?_rounded _
  | _ => rfl

lemma markup_featureNodes? (features : List (MapFeature Float)) :
    (featureNodes? o c t features).map (List.map Node.markup) =
      if t.isUnstyled then some []
      else (features.mapM fun f => (shapeNode? o c t f.shape).map (Option.map Node.markup)).map
        List.reduceOption := by
  unfold featureNodes?
  split
  · rfl
  · rw [mapM_map, Option.map_map, Option.map_map]
    apply congrArg (fun f => Option.map f _)
    funext own
    exact List.reduceOption_map.symm

lemma markup_ruleLayer?_rounded (features : List (MapFeature Float)) (e : EffectiveRule) :
    (ruleLayer? o c features e.rounded).map Node.markup =
      (ruleLayer? o c features e).map Node.markup := by
  have hclaimed : claimed e.rounded features = claimed e features := rfl
  have htreatment : e.rounded.rule.treatment = e.rule.treatment.rounded := rfl
  apply markup_group_congr
  simp only [markup_featureNodes?, hclaimed, htreatment, isUnstyled_rounded,
    markup_shapeNode?_rounded]

end Export

lemma markup_featuresLayer?_rounded (e : Exporter) (c : Canvas Float) (d : Definition)
    (features : List (MapFeature Float)) :
    (e.featuresLayer? c d.rounded features).map Node.markup =
      (e.featuresLayer? c d features).map Node.markup := by
  have hrules : d.rounded.rules = d.rules.map Rule.rounded := rfl
  have hlayers (er : EffectiveRule) : (ruleLayer? e.options c features er.rounded).map Node.markup =
      (ruleLayer? e.options c features er).map Node.markup :=
    markup_ruleLayer?_rounded e.options c features er
  apply markup_group_congr
  rw [← mapM_map, ← mapM_map, hrules, effective_rounded, List.mapM_map]
  simp only [Function.comp_def, hlayers]

/-- The exports of a definition and of the rounded one end together, and look the same. -/
theorem toSvg_run?_rounded (e : Exporter) (c : Canvas Float) (d : Definition)
    (features : List (MapFeature Float)) :
    (e.run? c d.rounded features).map (fun x => x.drawing.toSvg) =
      (e.run? c d features).map fun x => x.drawing.toSvg := by
  have hsvg (d : Definition) : (e.run? c d features).map (fun x => x.drawing.toSvg) =
      ((e.featuresLayer? c d features).map Node.markup).map fun markup =>
        Markup.document "svg" (rootAttributes c.size) (markup :: markupOf
          (e.poisLayer c d :: (e.options.attribution.map (e.attributionLayer c)).toList)) := by
    rw [Exporter.run?, Option.map_map, Option.map_map]
    rfl
  have hpois : e.poisLayer c d.rounded = e.poisLayer c d := rfl
  rw [hsvg, hsvg, hpois, markup_featuresLayer?_rounded]

/-! ### Saving and loading -/

namespace Definition

lemma ofText_of_ofText? {d : Definition} {text : String} (h : d.Sound)
    (hread : Tree.ofText? text = some (.ofJson d.toJson)) : ofText text = .ok d.rounded := by
  have hdecode : (Tree.ofText? text).bind ofTree? = some d.rounded := by
    rw [hread, Option.bind_some, ofTree?_toJson h]
  unfold ofText load
  simp only [hdecode, validate_rounded, h.valid]
  rfl

/-- Saving and loading again changes nothing visible. It is about sound definitions, such as those
that any text gives and those that edits make of them. Loading gives the definition with its colors
rounded to 8 bits for each component, which is saved as the same text, compiles to the same style
under any settings, and is exported as the same drawing whenever the export ends. The doubles of the
definition are assumed to read back. -/
theorem reload_unchanged :
    (∀ text d, ofText text = .ok d → d.Sound) ∧
    (∀ d e edits, d.Sound → (∀ edit ∈ edits, edit.Sound) → Edit.run d edits = .ok e → e.Sound) ∧
    ∀ d : Definition, d.Sound → (∀ x ∈ d.doubles, (Number.float x).ReadsBack) →
      ∃ e, ofText d.toJson.compact = .ok e ∧ ofText d.toJson.pretty = .ok e ∧
        e = d.rounded ∧ e.toJson = d.toJson ∧ (∀ c, compile c e = compile c d) ∧
        ∀ (exporter : Exporter) (canvas : Canvas Float) (features : List (MapFeature Float)),
          (exporter.run? canvas e features).map (fun x => x.drawing.toSvg) =
            (exporter.run? canvas d features).map fun x => x.drawing.toSvg := by
  refine ⟨fun text d => sound_of_ofText, fun d e edits => Edit.sound_run, ?_⟩
  intro d hsound hdoubles
  have hfits : Fits maxDepth d.toJson := (fits_toJson hdoubles).mono (by decide)
  have hcompact := ofText_of_ofText? hsound (ofText?_compact hfits)
  have hpretty := ofText_of_ofText? hsound (ofText?_pretty hfits)
  refine ⟨d.rounded, hcompact, hpretty, rfl, toJson_rounded d, fun c => compile_rounded c d, ?_⟩
  intro exporter canvas features
  exact toSvg_run?_rounded exporter canvas d features

/-- A style with colors between the steps of 8 bits, and a saved point of interest. -/
def betweenSteps : Definition := ⟨⟨"between-1"⟩,
  [⟨"water", .keyValue "natural" "water",
    ⟨some ⟨2.5, ⟨0.1, 0.2, 0.3, 0.5⟩, true⟩, some ⟨⟨0.25, 0.5, 0.75, 1.0⟩⟩⟩⟩],
  [⟨"7", ⟨13.375, 52.5⟩, "Gate", "monument"⟩]⟩

theorem reload_betweenSteps : betweenSteps.Sound ∧
    (∀ x ∈ betweenSteps.doubles, (Number.float x).ReadsBack) ∧
    (Edit.Sound (.remove "water") ∧ ∃ e, Edit.run betweenSteps [.remove "water"] = .ok e ∧
      e.Sound) ∧
    ∃ e, ofText betweenSteps.toJson.compact = .ok e ∧ e = betweenSteps.rounded ∧ e.Sound ∧
      ∀ c, compile c e = compile c betweenSteps := by
  have hsound : betweenSteps.Sound := by
    constructor
    · rfl
    · intro p hp
      obtain rfl := List.mem_singleton.mp hp
      exact ⟨by decide +kernel, by decide +kernel⟩
  have hdoubles : ∀ x ∈ betweenSteps.doubles, (Number.float x).ReadsBack := by
    have hall : ∀ x ∈ [2.5, 13.375, 52.5], (Number.float x).ReadsBack := by decide +kernel
    exact hall
  obtain ⟨hloaded, hedited, hreload⟩ := reload_unchanged
  obtain ⟨e, hcompact, -, he, -, hcompile, -⟩ := hreload betweenSteps hsound hdoubles
  have hremove : Edit.run betweenSteps [.remove "water"] = .ok _ := rfl
  exact ⟨hsound, hdoubles, ⟨trivial, _, hremove, hedited _ _ _ hsound (by simp [Edit.Sound]) hremove⟩,
    e, hcompact, he, hloaded _ e hcompact, hcompile⟩

end Definition

end MapStyle
