import MapStyle.Proofs.Priority
import MapStyle.Renderer.Compile

/-!
# What a renderer style draws

The layers of a compiled style from bottom to top, and which of them draw a feature: those of the
rule that wins it, or the ghosts of its categories if no rule does.
-/

namespace MapStyle.Renderer

/-- The identity and kind of a layer. -/
def Layer.signature (l : Layer) : String × LayerKind :=
  (l.id, l.kind)

/-- The layers that the rule at a position emits. -/
def Config.emitted (c : Config) (rules : List Rule) (i : Nat) : List Layer :=
  ((Priority.effective rules)[i]?.map c.ruleLayers).getD []

/-- The layers due for a rule: one for its fill, then one for its line. -/
def ruleSignature (r : Rule) : List (String × LayerKind) :=
  (if r.treatment.fill.isSome then [(r.id ++ "-fill", .fill)] else []) ++
    if r.treatment.line.isSome then [(r.id ++ "-line", .line)] else []

/-- The identities of the ghosts whose categories a feature belongs to. -/
def ghostIds (f : Feature) : List String :=
  (if (f.property? "highway").isSome then ["ghost-highways"] else []) ++
    (if (f.property? "building").isSome then ["ghost-buildings"] else []) ++
    if (f.property? "natural").isSome ∨ (f.property? "leisure").isSome then
      ["ghost-nature-fill", "ghost-nature-line"]
    else []

lemma compile_eq_ok_iff (c : Config) (d : Definition) (doc : Document) :
    compile c d = .ok doc ↔ d.validate = .ok () ∧
      doc = ⟨specVersion, c.sources, c.glyphs, c.sprite, c.layers d⟩ := by
  unfold compile
  cases d.validate with
  | error e => simp [bind, Except.bind]
  | ok u => simp [bind, Except.bind, pure, Except.pure, eq_comm]

lemma layers_of_compile {c : Config} {d : Definition} {doc : Document}
    (h : compile c d = .ok doc) : doc.layers = c.layers d := by
  rw [((compile_eq_ok_iff c d doc).mp h).2]

lemma drawing_eq (doc : Document) (f : Feature) :
    doc.drawing f = doc.layers.filter fun l => l.draws f := rfl

/-! ### Layers of rules -/

lemma draws_paintLayer (c : Config) (e : EffectiveRule) (p : Paint) (f : Feature) :
    (c.paintLayer e p).draws f = e.predicate.holds f := by
  cases p <;> rfl

lemma filter_ruleLayers (c : Config) (e : EffectiveRule) (f : Feature) :
    (c.ruleLayers e).filter (fun l => l.draws f) =
      if e.predicate.holds f then c.ruleLayers e else [] := by
  have hdraws : (fun l => l.draws f) ∘ c.paintLayer e = fun _ => e.predicate.holds f := by
    funext p
    exact draws_paintLayer c e p f
  unfold Config.ruleLayers
  rw [List.filter_map, hdraws]
  by_cases h : e.predicate.holds f
  · rw [if_pos h, h, List.filter_eq_self.mpr (fun _ _ => rfl)]
  · simp [h]

lemma map_signature_ruleLayers (c : Config) (e : EffectiveRule) :
    (c.ruleLayers e).map Layer.signature = ruleSignature e.rule := by
  unfold Config.ruleLayers Treatment.paints ruleSignature
  cases e.rule.treatment.fill <;> cases e.rule.treatment.line <;> rfl

lemma emitted_of_effective (c : Config) {rules : List Rule} {i : Nat} {e : EffectiveRule}
    (h : (Priority.effective rules)[i]? = some e) : c.emitted rules i = c.ruleLayers e := by
  simp [Config.emitted, h]

lemma flatMap_ruleLayers (c : Config) (rules : List Rule) :
    (Priority.effective rules).flatMap c.ruleLayers =
      (List.range rules.length).flatMap (c.emitted rules) := by
  apply Priority.flatMap_effective_range
  intro i e he
  rw [emitted_of_effective c he]

lemma draws_of_mem_emitted {c : Config} {rules : List Rule} {i : Nat} {l : Layer}
    (hl : l ∈ c.emitted rules i) (f : Feature) :
    l.draws f = true ↔ Priority.winner? f rules = some i := by
  cases he : (Priority.effective rules)[i]? with
  | none => simp [Config.emitted, he] at hl
  | some e =>
    rw [emitted_of_effective c he] at hl
    obtain ⟨p, _, rfl⟩ := List.mem_map.mp hl
    rw [draws_paintLayer, Priority.holds_effective_iff he]

lemma filter_rule_layers (c : Config) (rules : List Rule) (f : Feature) :
    ((Priority.effective rules).flatMap c.ruleLayers).filter (fun l => l.draws f) =
      ((Priority.winner? f rules).map (c.emitted rules)).getD [] := by
  have hsplit : ((Priority.effective rules).flatMap c.ruleLayers).filter (fun l => l.draws f) =
      ((Priority.effective rules).filter fun e => e.predicate.holds f).flatMap c.ruleLayers := by
    rw [List.filter_flatMap]
    induction Priority.effective rules with
    | nil => rfl
    | cons e es ih =>
      rw [List.flatMap_cons, ih, filter_ruleLayers, List.filter_cons]
      by_cases h : e.predicate.holds f <;> simp [h]
  rw [hsplit, Priority.filter_effective]
  cases Priority.winner? f rules with
  | none => rfl
  | some i => cases h : (Priority.effective rules)[i]? <;> simp [Config.emitted, h]

/-! ### Ghosts -/

lemma holds_category (g : Ghost) (f : Feature) :
    g.category.holds f = g.keys.any fun key => (f.property? key).isSome := by
  unfold Ghost.category
  split
  · next key hkeys => simp [hkeys, Predicate.holds]
  · rw [Predicate.holds_any, List.any_map]
    simp [Function.comp_def, Predicate.holds]

lemma draws_ghostLayer (c : Config) (rules : List Rule) (g : Ghost) (f : Feature) :
    (c.ghostLayer (.not (Priority.anyRule rules)) g).draws f =
      ((Priority.winner? f rules).isNone && g.keys.any fun key => (f.property? key).isSome) := by
  have h : (c.ghostLayer (.not (Priority.anyRule rules)) g).draws f =
      (Predicate.all [.not (Priority.anyRule rules), g.category]).holds f := rfl
  rw [h, Predicate.holds_all]
  simp [Predicate.holds_not, Priority.holds_anyRule, holds_category]

lemma ghost_not_drawn {c : Config} {rules : List Rule} {f : Feature} {l : Layer}
    (hw : (Priority.winner? f rules).isSome = true) (hl : l ∈ c.ghostLayers rules) :
    l.draws f = false := by
  obtain ⟨g, _, rfl⟩ := List.mem_map.mp hl
  rw [draws_ghostLayer, Option.isNone_eq_false_iff.mpr hw, Bool.false_and]

lemma filter_ghostLayers (c : Config) {rules : List Rule} {f : Feature}
    (hw : Priority.winner? f rules = none) :
    (c.ghostLayers rules).filter (fun l => l.draws f) =
      (ghosts.filter fun g => g.keys.any fun key => (f.property? key).isSome).map
        (c.ghostLayer (.not (Priority.anyRule rules))) := by
  have hdraws : (fun l => l.draws f) ∘ c.ghostLayer (.not (Priority.anyRule rules)) =
      fun g : Ghost => g.keys.any fun key => (f.property? key).isSome := by
    funext g
    simp [draws_ghostLayer, hw]
  rw [Config.ghostLayers, List.filter_map, hdraws]

lemma map_id_drawn_ghosts {c : Config} {rules : List Rule} {f : Feature}
    (hw : Priority.winner? f rules = none) :
    ((c.ghostLayers rules).filter fun l => l.draws f).map Layer.id = ghostIds f := by
  have hid : Layer.id ∘ c.ghostLayer (.not (Priority.anyRule rules)) = Ghost.id := rfl
  rw [filter_ghostLayers c hw, List.map_map, hid]
  simp only [ghosts, ghostIds, List.filter_cons, List.filter_nil, List.any_cons, List.any_nil,
    Bool.or_false]
  cases (f.property? "highway").isSome <;> cases (f.property? "building").isSome <;>
    cases (f.property? "natural").isSome <;> cases (f.property? "leisure").isSome <;> rfl

/-! ### Whole documents -/

lemma drawing_eq_append {c : Config} {d : Definition} {doc : Document}
    (h : compile c d = .ok doc) (f : Feature) :
    doc.drawing f = (c.ghostLayers d.rules).filter (fun l => l.draws f) ++
      ((Priority.winner? f d.rules).map (c.emitted d.rules)).getD [] := by
  have hpois : (c.pois.map (c.poiLayer d.pois)).toList.filter (fun l => l.draws f) = [] := by
    cases c.pois <;> rfl
  rw [drawing_eq, layers_of_compile h, Config.layers, List.filter_append, List.filter_append,
    filter_rule_layers, hpois, List.append_nil]

lemma drawing_of_winner {c : Config} {d : Definition} {doc : Document} {f : Feature} {i : Nat}
    (h : compile c d = .ok doc) (hw : Priority.winner? f d.rules = some i) :
    doc.drawing f = c.emitted d.rules i := by
  have hghosts : (c.ghostLayers d.rules).filter (fun l => l.draws f) = [] := by
    simpa using fun l hl => ghost_not_drawn (by rw [hw]; rfl) hl
  rw [drawing_eq_append h, hghosts, hw]
  rfl

/-- What a compiled style draws. Its layers are ghosts, the rules' layers in authored order and the
points of interest, of which only these have no filter. A feature is drawn by the layers of the rule
that wins it, and by ghosts of its categories exactly if there is no such rule. -/
theorem drawing_of_compile {c : Config} {d : Definition} {doc : Document}
    (h : compile c d = .ok doc) :
    doc.layers = c.ghostLayers d.rules ++ (List.range d.rules.length).flatMap (c.emitted d.rules) ++
      (c.pois.map (c.poiLayer d.pois)).toList ∧
    (c.ghostLayers d.rules).map Layer.signature =
      [("ghost-highways", .line), ("ghost-buildings", .fill), ("ghost-nature-fill", .fill),
        ("ghost-nature-line", .line)] ∧
    (∀ i r, d.rules[i]? = some r →
      (c.emitted d.rules i).map Layer.signature = ruleSignature r) ∧
    (∀ l ∈ doc.layers, l.filter = none ↔ ∃ s ∈ c.pois, l = c.poiLayer d.pois s) ∧
    ∀ f,
      (∀ i, Priority.winner? f d.rules = some i →
        doc.drawing f = c.emitted d.rules i ∧ ∀ l ∈ c.ghostLayers d.rules, l.draws f = false) ∧
      (Priority.winner? f d.rules = none →
        doc.drawing f = (c.ghostLayers d.rules).filter (fun l => l.draws f) ∧
        (doc.drawing f).map Layer.id = ghostIds f ∧
        ∀ i, ∀ l ∈ c.emitted d.rules i, l.draws f = false) := by
  have hlayers := layers_of_compile h
  unfold Config.layers at hlayers
  refine ⟨by rw [hlayers, flatMap_ruleLayers], rfl, ?_, ?_, ?_⟩
  · intro i r hr
    obtain ⟨e, he, rfl⟩ := Priority.exists_effective hr
    rw [emitted_of_effective c he, map_signature_ruleLayers]
  · intro l hl
    rw [hlayers] at hl
    simp only [List.mem_append, List.mem_flatMap, Option.mem_toList,
      Option.map_eq_some_iff] at hl
    constructor
    · intro hnone
      rcases hl with (hghost | ⟨e, _, hrule⟩) | ⟨s, hs, rfl⟩
      · obtain ⟨g, _, rfl⟩ := List.mem_map.mp hghost
        cases hnone
      · obtain ⟨p, _, rfl⟩ := List.mem_map.mp hrule
        cases p <;> cases hnone
      · exact ⟨s, hs, rfl⟩
    · rintro ⟨s, _, rfl⟩
      rfl
  · intro f
    refine ⟨fun i hi => ?_, fun hnone => ?_⟩
    · have hwon : (Priority.winner? f d.rules).isSome = true := by rw [hi]; rfl
      exact ⟨drawing_of_winner h hi, fun l hl => ghost_not_drawn hwon hl⟩
    · have hghosts : doc.drawing f = (c.ghostLayers d.rules).filter (fun l => l.draws f) := by
        rw [drawing_eq_append h, hnone]
        exact List.append_nil _
      refine ⟨hghosts, by rw [hghosts, map_id_drawn_ghosts hnone], fun i l hl => ?_⟩
      rw [Bool.eq_false_iff, ne_eq, draws_of_mem_emitted hl, hnone]
      simp

/-- Rules that overlap: all roads, the motorways among them, and one feature that stays hidden. -/
def overlappingRules : List Rule := [
  (Rule.plain "roads" (.keyPresence "highway")).withLine ⟨2.0, .black, false⟩,
  ((Rule.plain "motorways" (.keyValue "highway" "motorway")).withLine
    ⟨4.0, .pureRed, true⟩).withFill ⟨.ofRgba8 ⟨0, 0, 255, 128⟩⟩,
  Rule.plain "hidden" (.identity 7)]

/-- A style of the overlapping rules. -/
def overlappingStyle : Definition := ⟨⟨"overlapping"⟩, overlappingRules, []⟩

/-- A motorway, which two of the overlapping rules match. -/
def motorway : Feature := ⟨some 1, .ofList [("highway", .text "motorway")]⟩

theorem drawing_of_compile_overlapping : ∃ doc, compile .default overlappingStyle = .ok doc ∧
    (doc.drawing motorway).map Layer.id = ["motorways-fill", "motorways-line"] := by
  have h : compile .default overlappingStyle = .ok _ := rfl
  have hwinner : Priority.winner? motorway overlappingStyle.rules = some 1 := by decide
  obtain ⟨-, -, hsignature, -, hdrawn⟩ := drawing_of_compile h
  refine ⟨_, h, ?_⟩
  rw [((hdrawn motorway).1 1 hwinner).1]
  exact congrArg (List.map Prod.fst) (hsignature 1 _ rfl)

end MapStyle.Renderer
