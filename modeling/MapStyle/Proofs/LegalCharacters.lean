import MapStyle.Export
import MapStyle.Proofs.Agreement
import MapStyle.Proofs.DrawingText

/-!
# Legal characters

XML leaves most control characters out of documents, escaped or not. The strings of a drawing reach
its SVG text without losing or gaining any: changing letter case and escaping keep legal characters
legal and others illegal, and all else is plain.
-/

namespace MapStyle

namespace Markup

/-- The code points that XML 1.0 allows in a document. -/
def legalRanges : List (Nat × Nat) :=
  [(0x9, 0xA), (0xD, 0xD), (0x20, 0xD7FF), (0xE000, 0xFFFD), (0x10000, 0x10FFFF)]

def IsLegalCode (n : Nat) : Prop :=
  ∃ r ∈ legalRanges, r.1 ≤ n ∧ n ≤ r.2

instance (n : Nat) : Decidable (IsLegalCode n) :=
  List.decidableBEx _ legalRanges

/-- Whether XML 1.0 allows all characters of a text in a document. -/
def IsLegal (text : List Char) : Prop :=
  ∀ c ∈ text, IsLegalCode c.toNat

instance (text : List Char) : Decidable (IsLegal text) :=
  List.decidableBAll _ text

/-! ### Legal texts -/

section Texts

variable {text rest : List Char} {c : Char}

@[simp] lemma isLegal_nil : IsLegal [] :=
  List.forall_mem_nil _

@[simp] lemma isLegal_append : IsLegal (text ++ rest) ↔ IsLegal text ∧ IsLegal rest :=
  List.forall_mem_append

@[simp] lemma isLegal_cons : IsLegal (c :: text) ↔ IsLegalCode c.toNat ∧ IsLegal text :=
  List.forall_mem_cons

lemma isLegal_flatMap {β : Type} {f : β → List Char} {xs : List β} :
    IsLegal (xs.flatMap f) ↔ ∀ x ∈ xs, IsLegal (f x) := by
  unfold IsLegal
  simp only [List.mem_flatMap, forall_exists_index, and_imp]
  exact ⟨fun h x hx c hc => h c x hx hc, fun h c x hx hc => h x hx c hc⟩

lemma IsPlain.isLegal (h : IsPlain text) : IsLegal text := by
  intro c hc
  obtain ⟨hlow, hhigh, _⟩ := h c hc
  refine ⟨(0x20, 0xD7FF), by decide, hlow, le_trans hhigh (by decide)⟩

end Texts

end Markup

open Markup

/-! ### Letter case -/

namespace Text

/-- Whether a run of a case mapping leads from legal to legal code points. -/
def CaseRun.IsLegal (r : CaseRun) : Prop :=
  (∃ s ∈ legalRanges, s.1 ≤ r.first ∧ r.last ≤ s.2) ∧
  ∃ s ∈ legalRanges, (s.1 : Int) ≤ r.first + r.shift ∧ r.last + r.shift ≤ s.2

instance (r : CaseRun) : Decidable r.IsLegal :=
  have (P : Nat × Nat → Prop) [DecidablePred P] : Decidable (∃ s ∈ legalRanges, P s) :=
    List.decidableBEx _ legalRanges
  instDecidableAnd

/-- Whether a longer case mapping leads from legal to legal code points. -/
def IsLegalExpansion (e : Nat × List Nat) : Prop :=
  IsLegalCode e.1 ∧ ∀ n ∈ e.2, IsLegalCode n

instance (e : Nat × List Nat) : Decidable (IsLegalExpansion e) :=
  instDecidableAnd

lemma isLegal_of_mem_upperRuns : ∀ r ∈ upperRuns, r.IsLegal := by decide +kernel

lemma isLegal_of_mem_upperExpansions : ∀ e ∈ upperExpansions, IsLegalExpansion e := by
  decide +kernel

lemma isLegal_of_mem_lowerRuns : ∀ r ∈ lowerRuns, r.IsLegal := by decide +kernel

lemma isLegal_of_mem_lowerExpansions : ∀ e ∈ lowerExpansions, IsLegalExpansion e := by
  decide +kernel

lemma isLegalCode_of_shiftCase? {runs : List CaseRun} (hruns : ∀ r ∈ runs, r.IsLegal) {n m : Nat}
    (h : shiftCase? n runs = some m) : IsLegalCode n ∧ IsLegalCode m := by
  induction runs with
  | nil => cases h
  | cons r runs ih =>
    obtain ⟨⟨⟨s, hs, hfirst, hlast⟩, t, ht, hstart, hend⟩, hruns⟩ := List.forall_mem_cons.mp hruns
    rw [shiftCase?] at h
    split at h
    · next hmem =>
      obtain rfl := Option.some.inj h
      exact ⟨⟨s, hs, by omega, by omega⟩, t, ht, by omega, by omega⟩
    · exact ih hruns h

/-- Legal code points are those of characters. -/
lemma toNat_ofNat_of_isLegalCode {n : Nat} (h : IsLegalCode n) : (Char.ofNat n).toNat = n := by
  have hvalid : n.isValidChar := by
    obtain ⟨r, hr, hlow, hhigh⟩ := h
    unfold Nat.isValidChar
    simp only [legalRanges, List.mem_cons, List.not_mem_nil, or_false] at hr
    rcases hr with rfl | rfl | rfl | rfl | rfl <;> simp only at hlow hhigh <;> omega
  rw [Char.ofNat, dif_pos hvalid]
  rfl

/-- A case mapping between legal code points leaves illegal characters as they are. -/
lemma isLegal_mapCase {runs : List CaseRun} {expansions : List (Nat × List Nat)}
    (hruns : ∀ r ∈ runs, r.IsLegal) (hexpansions : ∀ e ∈ expansions, IsLegalExpansion e)
    (c : Char) : IsLegal (mapCase runs expansions c) ↔ IsLegalCode c.toNat := by
  have himage {n : Nat} (hn : IsLegalCode n) : IsLegalCode (Char.ofNat n).toNat := by
    rwa [toNat_ofNat_of_isLegalCode hn]
  -- whatever the tables name is legal before and after
  unfold mapCase
  split
  · next m hm =>
    obtain ⟨hc, hm⟩ := isLegalCode_of_shiftCase? hruns hm
    simp [hc, himage hm]
  · split
    · next ns hns =>
      obtain ⟨before, after, hsplit, -⟩ := List.lookup_eq_some_iff.mp hns
      obtain ⟨hc, hns⟩ := hexpansions (c.toNat, ns) (by simp [hsplit])
      have hlegal : IsLegal (ns.map Char.ofNat) :=
        List.forall_mem_map.mpr fun n hn => himage (hns n hn)
      simp only [hc, hlegal]
    · simp

lemma isLegal_upper (c : Char) : IsLegal (upper c) ↔ IsLegalCode c.toNat :=
  isLegal_mapCase isLegal_of_mem_upperRuns isLegal_of_mem_upperExpansions c

lemma isLegal_lower (c : Char) : IsLegal (lower c) ↔ IsLegalCode c.toNat :=
  isLegal_mapCase isLegal_of_mem_lowerRuns isLegal_of_mem_lowerExpansions c

lemma isLegal_titleFrom (wordStart : Bool) (text : List Char) :
    IsLegal (titleFrom wordStart text) ↔ IsLegal text := by
  induction text generalizing wordStart with
  | nil => exact Iff.rfl
  | cons c rest ih =>
    have hspace : IsLegalCode (if c = '_' then ' ' else c).toNat ↔ IsLegalCode c.toNat := by
      split
      · next hc =>
        subst hc
        decide
      · exact Iff.rfl
    rw [titleFrom, isLegal_append, ih, isLegal_cons, ← hspace]
    cases wordStart with
    | true => simp only [if_true, isLegal_upper]
    | false => simp only [Bool.false_eq_true, if_false, isLegal_lower]

theorem isLegal_title (text : String) : IsLegal (title text).toList ↔ IsLegal text.toList := by
  rw [title, String.toList_ofList, isLegal_titleFrom]

lemma isLegal_wordText (w : Int64) : IsLegal (wordText w).toList := by
  rw [wordText, String.toList_ofList]
  cases w.toInt with
  | ofNat n => exact (IsPlain.natDigits n).isLegal
  | negSucc n => exact (IsPlain.cons (by decide) (.natDigits (n + 1))).isLegal

end Text

/-- The texts that a filter is made of. -/
def Filter.texts : Filter → List String
  | .keyPresence key => [key]
  | .keyValue key value => [key, value]
  | .identity _ => []

lemma Filter.isLegal_label (filter : Filter) :
    IsLegal filter.label.toList ↔ ∀ text ∈ filter.texts, IsLegal text.toList := by
  cases filter with
  | keyPresence key => simp [label, texts, Text.isLegal_title]
  | keyValue key value => simp +decide [label, texts, Text.isLegal_title]
  | identity id => simp +decide [label, texts, Text.isLegal_wordText]

/-! ### Written markup -/

namespace Markup

lemma isLegal_escape (c : Char) : IsLegal (escape c) ↔ IsLegalCode c.toNat := by
  unfold escape
  split_ifs with hamp hlt hgt hquot hapos
  · subst hamp
    decide
  · subst hlt
    decide
  · subst hgt
    decide
  · subst hquot
    decide
  · subst hapos
    decide
  · simp

lemma isLegal_escaped (text : String) : IsLegal (escaped text) ↔ IsLegal text.toList := by
  simp only [escaped, isLegal_flatMap, isLegal_escape]
  exact Iff.rfl

lemma isLegal_indent (depth : Nat) : IsLegal (indent depth) :=
  (IsPlain.replicate (by decide) _).isLegal

/-- Whether the names and values of attributes are legal. -/
def LegalAttributes (attributes : List (String × String)) : Prop :=
  ∀ a ∈ attributes, IsLegal a.1.toList ∧ IsLegal a.2.toList

variable {name : String} {attributes : List (String × String)}

lemma isLegal_openTag (hname : IsLegal name.toList) :
    IsLegal (openTag name attributes) ↔ LegalAttributes attributes := by
  simp +decide [openTag, writeAttributes, isLegal_flatMap, isLegal_escaped, hname, LegalAttributes]

lemma isLegal_closeTag (hname : IsLegal name.toList) : IsLegal (closeTag name) := by
  simp +decide [closeTag, hname]

lemma isLegal_element (hname : IsLegal name.toList) (depth : Nat) (children : List Markup) :
    IsLegal (write depth (.element name attributes children)) ↔
      LegalAttributes attributes ∧ IsLegal (writeAll (depth + 1) children) := by
  cases children with
  | nil => simp +decide [write, writeAll, isLegal_indent, isLegal_openTag hname]
  | cons child children =>
    simp +decide [write, writeAll, isLegal_indent, isLegal_openTag hname, isLegal_closeTag hname]

lemma isLegal_text (hname : IsLegal name.toList) (depth : Nat) (content : String) :
    IsLegal (write depth (.text name attributes content)) ↔
      LegalAttributes attributes ∧ IsLegal content.toList := by
  simp +decide [write, isLegal_indent, isLegal_openTag hname, isLegal_closeTag hname,
    isLegal_escaped]

lemma isLegal_document (hname : IsLegal name.toList) (hattributes : LegalAttributes attributes)
    (children : List Markup) :
    IsLegal (document name attributes children).toList ↔ IsLegal (writeAll 1 children) := by
  simp +decide [document, isLegal_openTag hname, isLegal_closeTag hname, hattributes]

end Markup

/-! ### Drawings -/

namespace Drawing

/-- The names of attributes in drawings. -/
def attributeNames : List String := [
  "xmlns", "xmlns:inkscape", "viewBox", "width", "height", "inkscape:label", "inkscape:groupmode",
  "transform", "d", "fill", "fill-opacity", "stroke", "stroke-opacity", "stroke-width",
  "stroke-dasharray", "x", "y", "font-size", "text-anchor"]

lemma isLegal_of_mem_attributeNames : ∀ name ∈ attributeNames, IsLegal name.toList := by decide

lemma legalAttributes_of_plain {attributes : List (String × String)}
    (h : PlainAttributes attributes) (hnames : ∀ a ∈ attributes, a.1 ∈ attributeNames) :
    LegalAttributes attributes :=
  fun a ha => ⟨isLegal_of_mem_attributeNames _ (hnames a ha), (h a ha).2.isLegal⟩

lemma names_paint {name : String} (hname : name ∈ attributeNames)
    (hopacity : name ++ "-opacity" ∈ attributeNames) (c : Color) :
    ∀ a ∈ paintAttributes name c, a.1 ∈ attributeNames := by
  refine List.forall_mem_cons.mpr ⟨hname, ?_⟩
  cases c.opacity with
  | none => exact List.forall_mem_nil _
  | some o => exact List.forall_mem_singleton.mpr hopacity

lemma legalAttributes_path (p : Path Float) : LegalAttributes p.attributes := by
  refine legalAttributes_of_plain (plainAttributes_path p) ?_
  rw [Path.attributes, List.forall_mem_cons, List.forall_mem_append]
  have hdata : "d" ∈ attributeNames := by decide
  refine ⟨hdata, ?_, ?_⟩
  · cases p.fill with
    | none => exact List.forall_mem_singleton.mpr (by decide)
    | some c => exact names_paint (by decide) (by decide) c
  · cases p.stroke with
    | none => exact List.forall_mem_nil _
    | some s =>
      rw [Option.map_some, Option.getD_some, Stroke.attributes, List.forall_mem_append,
        List.forall_mem_cons]
      have hwidth : "stroke-width" ∈ attributeNames := by decide
      have hdashes : "stroke-dasharray" ∈ attributeNames := by decide
      refine ⟨names_paint (by decide) (by decide) s.color, hwidth, ?_⟩
      cases s.dashes with
      | none => exact List.forall_mem_nil _
      | some dashes => exact List.forall_mem_singleton.mpr hdashes

lemma legalAttributes_label (l : Label Float) : LegalAttributes l.attributes := by
  refine legalAttributes_of_plain (plainAttributes_label l) ?_
  rw [Label.attributes, List.forall_mem_append]
  refine ⟨?_, names_paint (by decide) (by decide) l.fill⟩
  simp +decide [numberAttribute]

lemma legalAttributes_root (size : Size Float) : LegalAttributes (rootAttributes size) := by
  refine legalAttributes_of_plain (plainAttributes_root size) ?_
  simp +decide [rootAttributes, numberAttribute]

lemma legalAttributes_group (h : GroupHead Float) :
    LegalAttributes h.attributes ↔ ∀ label ∈ h.label, IsLegal label.toList := by
  have hothers : LegalAttributes ({ h with label := none } : GroupHead Float).attributes := by
    refine legalAttributes_of_plain (plainAttributes_group h) ?_
    obtain ⟨label, isLayer, transform⟩ := h
    cases isLayer <;> cases transform <;> simp +decide [GroupHead.attributes]
  have hname : IsLegal Outline.labelName.toList := by decide
  rw [attributes_group, LegalAttributes, List.forall_mem_append]
  cases h.label with
  | none => exact iff_of_true ⟨List.forall_mem_nil _, hothers⟩ (by simp)
  | some label =>
    simp only [Option.map_some, Option.toList_some, List.forall_mem_singleton, hname, true_and,
      Option.mem_def, Option.some.injEq, forall_eq']
    exact and_iff_left hothers

mutual

/-- The texts and labels of a node, and what its ready markup comes down to. -/
def Node.texts : Node Float → List String
  | .group head children => head.label.toList ++ textsOf children
  | .path _ => []
  | .label l => [l.text]
  | .verbatim markup => [String.ofList (Text.trim markup.toList)]

def textsOf : List (Node Float) → List String
  | [] => []
  | node :: nodes => node.texts ++ textsOf nodes

end

mutual

lemma Node.isLegal_write (depth : Nat) : ∀ node : Node Float,
    IsLegal (node.markup.write depth) ↔ ∀ text ∈ node.texts, IsLegal text.toList
  | .group head children => by
    rw [Node.markup, isLegal_element (by decide), legalAttributes_group,
      isLegal_writeAll (depth + 1) children, Node.texts, List.forall_mem_append]
    simp only [Option.mem_toList, Option.mem_def]
  | .path p => by
    rw [Node.markup, isLegal_element (by decide), Node.texts]
    simp [legalAttributes_path p, Markup.writeAll]
  | .label l => by
    rw [Node.markup, isLegal_text (by decide), Node.texts, List.forall_mem_singleton]
    exact and_iff_right (legalAttributes_label l)
  | .verbatim markup => by
    rw [Node.markup, Node.texts, List.forall_mem_singleton, String.toList_ofList]
    simp +decide [Markup.write, isLegal_indent]

lemma isLegal_writeAll (depth : Nat) : ∀ nodes : List (Node Float),
    IsLegal (Markup.writeAll depth (markupOf nodes)) ↔ ∀ text ∈ textsOf nodes, IsLegal text.toList
  | [] => by simp [markupOf, Markup.writeAll, textsOf]
  | node :: nodes => by
    rw [markupOf, Markup.writeAll, isLegal_append, textsOf, List.forall_mem_append,
      Node.isLegal_write depth node, isLegal_writeAll depth nodes]

end

/-- An SVG text has illegal characters exactly if a text of its drawing has. -/
theorem isLegal_toSvg (d : Drawing Float) :
    IsLegal d.toSvg.toList ↔ ∀ text ∈ textsOf d.children, IsLegal text.toList := by
  rw [toSvg, isLegal_document (by decide) (legalAttributes_root d.size), isLegal_writeAll]

lemma textsOf_eq_flatMap (nodes : List (Node Float)) : textsOf nodes = nodes.flatMap Node.texts := by
  induction nodes with
  | nil => rfl
  | cons n nodes ih => rw [textsOf, ih, List.flatMap_cons]

lemma textsOf_eq_nil {nodes : List (Node Float)} (h : ∀ n ∈ nodes, n.texts = []) :
    textsOf nodes = [] := by
  rw [textsOf_eq_flatMap, List.flatMap_eq_nil_iff]
  exact h

end Drawing

open Drawing

/-! ### Exports -/

namespace Export

lemma texts_group? {nodes : List (Node Float)} (h : ∀ n ∈ nodes, n.texts = []) :
    ∀ n ∈ group? nodes, n.texts = [] := by
  intro n hn
  unfold group? at hn
  split at hn
  · cases hn
  · obtain rfl := Option.some.inj hn
    rw [Node.texts, textsOf_eq_nil h]
    rfl

lemma texts_pathGroup? (paths : List (Path Float)) : ∀ n ∈ pathGroup? paths, n.texts = [] :=
  texts_group? (List.forall_mem_map.mpr fun _ _ => rfl)

/-- Shapes are drawn without texts. -/
lemma texts_shapeNode? {o : ExportOptions} {c : Canvas Float} {t : Treatment} {s : Shape Float}
    {n : Node Float} (h : shapeNode? o c t s = some (some n)) : n.texts = [] := by
  cases s with
  | lineString line =>
    obtain ⟨paths, -, hnode⟩ := Option.map_eq_some_iff.mp h
    unfold lineNode? at hnode
    split at hnode
    · obtain rfl := Option.some.inj hnode
      rfl
    · exact texts_pathGroup? _ n hnode
  | multiLineString lines =>
    obtain ⟨paths, -, hnode⟩ := Option.map_eq_some_iff.mp h
    exact texts_pathGroup? _ n hnode
  | polygon rings => exact texts_pathGroup? _ n (Option.some.inj h)
  | multiPolygon polygons =>
    refine texts_group? ?_ n (Option.some.inj h)
    intro m hm
    obtain ⟨rings, _, hrings⟩ := List.mem_filterMap.mp hm
    exact texts_pathGroup? _ m hrings
  | _ => cases h

lemma texts_featureNodes? {o : ExportOptions} {c : Canvas Float} {t : Treatment}
    {features : List (MapFeature Float)} {nodes : List (Node Float)}
    (h : featureNodes? o c t features = some nodes) : textsOf nodes = [] := by
  apply textsOf_eq_nil
  intro n hn
  obtain ⟨f, -, hf⟩ := exists_of_mem_featureNodes? h hn
  exact texts_shapeNode? hf

lemma texts_ruleLayer? {o : ExportOptions} {c : Canvas Float} {features : List (MapFeature Float)}
    {e : EffectiveRule} {layer : Node Float} (h : ruleLayer? o c features e = some layer) :
    layer.texts = [e.rule.filter.label] := by
  obtain ⟨nodes, hnodes, rfl⟩ := Option.map_eq_some_iff.mp h
  rw [Node.texts, texts_featureNodes? hnodes]
  rfl

end Export

namespace Exporter

lemma texts_featuresLayer? {e : Exporter} {c : Canvas Float} {d : Definition}
    {features : List (MapFeature Float)} {layer : Node Float}
    (h : e.featuresLayer? c d features = some layer) :
    layer.texts = featuresLabel :: d.rules.map fun r => r.filter.label := by
  obtain ⟨layers, hlayers, rfl⟩ := Option.map_eq_some_iff.mp h
  have htexts : ((Priority.effective d.rules).flatMap fun er => [er.rule.filter.label]) =
      layers.flatMap Node.texts :=
    flatMap_of_mapM hlayers fun er layer hmade => (Export.texts_ruleLayer? hmade).symm
  have hlabels : d.rules.map (fun r => r.filter.label) =
      (Priority.effective d.rules).map fun er => er.rule.filter.label := by
    conv_lhs => rw [← Priority.map_rule_effective d.rules]
    exact List.map_map
  rw [Node.texts, textsOf_eq_flatMap, ← htexts, hlabels, List.map_eq_flatMap]
  rfl

lemma texts_poisLayer (o : ExportOptions) (measure : TextMeasure) (c : Canvas Float)
    (d : Definition) :
    ((⟨o, .empty, measure⟩ : Exporter).poisLayer c d).texts = poisLabel :: d.pois.map Poi.text := by
  have hgroup (p : Poi) : (Export.poiGroup o .empty measure c p).texts = [p.text] := rfl
  rw [poisLayer, Node.texts, textsOf_eq_flatMap, List.flatMap_map, List.map_eq_flatMap]
  simp only [hgroup]
  rfl

/-- With an empty atlas the SVG text of an export has legal characters only if and only if all texts
that reach it have: the keys and values of filters, which it shows in title case, the texts of saved
points of interest, and the attribution. None of them is filtered or rejected. -/
theorem isLegal_export_iff {o : ExportOptions} {measure : TextMeasure} {c : Canvas Float}
    {d : Definition} {features : List (MapFeature Float)} {x : Export Float}
    (h : (⟨o, .empty, measure⟩ : Exporter).run? c d features = some x) :
    IsLegal x.drawing.toSvg.toList ↔
      (∀ r ∈ d.rules, ∀ text ∈ r.filter.texts, IsLegal text.toList) ∧
      (∀ p ∈ d.pois, IsLegal p.text.toList) ∧
      ∀ text ∈ o.attribution, IsLegal text.toList := by
  have hlabels : IsLegal featuresLabel.toList ∧ IsLegal poisLabel.toList ∧
      IsLegal attributionLabel.toList := by decide
  obtain ⟨hfeatures, hpois, hattribution⟩ := hlabels
  have hlayer : (∀ text ∈ textsOf (o.attribution.map
      ((⟨o, .empty, measure⟩ : Exporter).attributionLayer c)).toList, IsLegal text.toList) ↔
      ∀ text ∈ o.attribution, IsLegal text.toList := by
    cases o.attribution with
    | none => simp [textsOf]
    | some text => simp [textsOf, attributionLayer, Node.texts, GroupHead.layer, hattribution]
  obtain ⟨features, hmade, rfl⟩ := Option.map_eq_some_iff.mp h
  rw [isLegal_toSvg, drawingOf, textsOf_eq_flatMap, List.flatMap_append, ← textsOf_eq_flatMap,
    ← textsOf_eq_flatMap, List.forall_mem_append, hlayer, textsOf, textsOf, textsOf,
    texts_featuresLayer? hmade, texts_poisLayer]
  simp only [List.append_nil, List.cons_append, List.forall_mem_cons, List.forall_mem_append,
    List.forall_mem_map, hfeatures, hpois, Filter.isLegal_label, true_and, and_assoc]

theorem isLegal_export_overlapping :
    ∃ x, plainExporter.run? unitCanvas Renderer.overlappingStyle [motorwayLine] = some x ∧
      IsLegal x.drawing.toSvg.toList := by
  obtain ⟨x, h⟩ := exists_run?_motorway Renderer.overlappingStyle
    (show [motorwayLine] ⊆ [motorwayLine, junction] by simp)
  refine ⟨x, h, (isLegal_export_iff h).mpr ⟨?_, List.forall_mem_nil _, ?_⟩⟩
  · decide
  · decide

/-- The text of a style with a rule for places whose name ends in the control character U+0001. -/
def controlStyle : String :=
  "\x7b\"revision\":\"r\",\"rules\":[\x7b\"id\":\"a\",\"filter\":\x7b\"kind\":\"key-value\"," ++
  "\"key\":\"name\",\"value\":\"A\\u0001\"\x7d,\"fill\":\x7b\"color\":\"#00ff00\"\x7d\x7d]," ++
  "\"savedPOIs\":[]\x7d"

theorem not_isLegal_export_control : ∃ d, Definition.ofText controlStyle = .ok d ∧
    ∃ x, plainExporter.run? unitCanvas d [] = some x ∧ ¬IsLegal x.drawing.toSvg.toList := by
  have hread : ((Definition.ofText controlStyle).toOption.map fun d =>
      d.rules.map fun r => r.filter.label) = some ["Name A\u0001"] := by decide +kernel
  obtain ⟨d, hdefinition, hlabels⟩ := exists_ok_of_map_toOption hread
  obtain ⟨x, hx⟩ := exists_run?_motorway d (List.nil_subset _)
  obtain ⟨layer, hmade, hdrawing⟩ := Option.map_eq_some_iff.mp hx
  refine ⟨d, hdefinition, x, hx, fun hlegal => ?_⟩
  have htext : "Name A\u0001" ∈ layer.texts := by
    rw [texts_featuresLayer? hmade, hlabels]
    exact List.mem_cons_of_mem _ List.mem_cons_self
  have hcontrol : ¬IsLegal "Name A\u0001".toList := by decide
  rw [← hdrawing] at hlegal
  exact hcontrol ((isLegal_toSvg _).mp hlegal _ (List.mem_append_left _ htext))

end Exporter

end MapStyle
