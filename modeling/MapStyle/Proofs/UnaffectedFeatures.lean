import MapStyle.Proofs.Agreement

/-!
# Features that an edit does not affect

An edit of rules that do not match a feature moves other rules and changes effective predicates and
the filters of ghosts, but not how the feature is drawn. The rule that wins a feature is the last of
those that match it, these stay as they are, and what is drawn depends on the winning rule alone.
-/

namespace MapStyle

universe u

/-! ### The winning rule -/

/-- The rule that paints a feature. -/
def Priority.winningRule? (f : Feature) (rules : List Rule) : Option Rule :=
  (winner? f rules).bind fun i => rules[i]?

lemma Priority.winningRule?_cons (f : Feature) (r : Rule) (rules : List Rule) :
    winningRule? f (r :: rules) =
      (winningRule? f rules).or (if r.filter.compile.holds f then some r else none) := by
  unfold winningRule?
  cases hw : winner? f rules with
  | some i =>
    obtain ⟨s, hs⟩ := exists_rule_of_winner? hw
    rw [(winner?_cons_succ f r rules i).mpr hw]
    simp [hs]
  | none =>
    by_cases hr : r.filter.compile.holds f = true
    · rw [(winner?_cons f r rules).mpr ⟨hr, hw⟩]
      simp [hr]
    · have hnone : winner? f (r :: rules) = none := by
        rw [winner?_eq_none_iff, List.forall_mem_cons]
        exact ⟨by simpa using hr, (winner?_eq_none_iff f rules).mp hw⟩
      simp [hnone, hr]

/-- The rule that wins a feature is the last one that matches it. -/
lemma Priority.winningRule?_eq (f : Feature) (rules : List Rule) :
    winningRule? f rules = (rules.filter fun r => r.filter.compile.holds f).getLast? := by
  induction rules with
  | nil => rfl
  | cons r rules ih =>
    rw [winningRule?_cons, ih, List.filter_cons]
    split
    · rw [List.getLast?_cons]
      cases (rules.filter fun r => r.filter.compile.holds f).getLast? <;> rfl
    · rw [Option.or_none]

/-! ### Edits and the rules that match -/

namespace Edit

/-- The rules that an edit of a definition adds, removes, replaces or moves. -/
def affected (d : Definition) : Edit → List Rule
  | .add r => [r]
  | .remove id => (d.rule? id).toList
  | .replace r => (d.rule? r.id).toList ++ [r]
  | .move source _ => d.rules[source]?.toList
  | .toggle _ => []

variable {α : Type} {p : α → Bool} {a : α}

lemma filter_eraseIdx {items : List α} {i : Nat} (hi : items[i]? = some a) (ha : p a = false) :
    (items.eraseIdx i).filter p = items.filter p := by
  induction items generalizing i with
  | nil => rfl
  | cons b items ih =>
    cases i with
    | zero =>
      obtain rfl := Option.some.inj hi
      rw [List.eraseIdx_cons_zero, List.filter_cons_of_neg (by simp [ha])]
    | succ i => rw [List.eraseIdx_cons_succ, List.filter_cons, List.filter_cons, ih hi]

lemma filter_insertIdx (items : List α) (i : Nat) (ha : p a = false) :
    (items.insertIdx i a).filter p = items.filter p := by
  induction i generalizing items with
  | zero => rw [List.insertIdx_zero, List.filter_cons_of_neg (by simp [ha])]
  | succ i ih =>
    cases items with
    | nil => rfl
    | cons b items => rw [List.insertIdx_succ_cons, List.filter_cons, List.filter_cons, ih]

lemma filter_moveItem {items : List α} {source : Nat} (target : Nat)
    (h : ∀ a ∈ items[source]?, p a = false) :
    (Definition.moveItem items source target).filter p = items.filter p := by
  unfold Definition.moveItem
  split
  · next item hitem =>
    rw [filter_insertIdx _ _ (h item hitem), filter_eraseIdx hitem (h item hitem)]
  · rfl

lemma filter_rules_apply {d d' : Definition} {e : Edit} {p : Rule → Bool}
    (happly : e.apply d = .ok d') (hp : ∀ r ∈ e.affected d, p r = false) :
    d'.rules.filter p = d.rules.filter p := by
  cases e with
  | add r =>
    obtain ⟨-, rfl⟩ := Definition.addRule_eq_ok_iff.mp happly
    have hr := hp r (List.mem_singleton_self r)
    simp [Definition.withRules, hr]
  | remove id =>
    obtain ⟨before, r, after, hrules, hr, rfl⟩ := Definition.rules_of_removeRule happly
    have hr := hp r (by simp [affected, hr])
    simp [Definition.withRules, hrules, hr]
  | replace r =>
    obtain ⟨before, old, after, hrules, -, hold, rfl⟩ := Definition.rules_of_replaceRule happly
    have hold := hp old (by simp [affected, hold])
    have hr := hp r (by simp [affected])
    simp [Definition.withRules, hrules, hold, hr]
  | move source target =>
    obtain ⟨-, rfl⟩ := Definition.moveRule_eq_ok_iff.mp happly
    exact filter_moveItem target fun r hr => hp r (Option.mem_toList.mpr hr)
  | toggle poi =>
    cases happly
    rfl

lemma winningRule?_apply {d d' : Definition} {e : Edit} {f : Feature}
    (happly : e.apply d = .ok d') (hf : ∀ r ∈ e.affected d, r.filter.compile.holds f = false) :
    Priority.winningRule? f d'.rules = Priority.winningRule? f d.rules := by
  rw [Priority.winningRule?_eq, Priority.winningRule?_eq, filter_rules_apply happly hf]

end Edit

/-! ### Layers apart from their filters -/

namespace Renderer

/-- A layer without its filter. -/
def Layer.unfiltered (l : Layer) : Layer :=
  { l with filter := none }

/-- The layers that draw a feature, without their filters, by the rule that wins it. -/
def Config.appearance (c : Config) (f : Feature) : Option Rule → List Layer
  | some r => (c.ruleLayers ⟨r, r.filter.compile⟩).map Layer.unfiltered
  | none =>
    (ghosts.filter fun g => g.keys.any fun key => (f.property? key).isSome).map fun g =>
      (c.ghostLayer g.category g).unfiltered

lemma map_unfiltered_ruleLayers (c : Config) {e e' : EffectiveRule} (h : e.rule = e'.rule) :
    (c.ruleLayers e).map Layer.unfiltered = (c.ruleLayers e').map Layer.unfiltered := by
  have hpaint : Layer.unfiltered ∘ c.paintLayer e = Layer.unfiltered ∘ c.paintLayer e' := by
    funext p
    cases p <;> simp [Config.paintLayer, Config.tileLayer, Layer.unfiltered, h]
  unfold Config.ruleLayers
  rw [List.map_map, List.map_map, hpaint, h]

lemma map_unfiltered_ghosts (c : Config) {rules : List Rule} {f : Feature}
    (hw : Priority.winner? f rules = none) :
    ((c.ghostLayers rules).filter fun l => l.draws f).map Layer.unfiltered =
      c.appearance f none := by
  rw [filter_ghostLayers c hw, List.map_map]
  rfl

lemma map_unfiltered_drawing {c : Config} {d : Definition} {doc : Document}
    (h : compile c d = .ok doc) (f : Feature) :
    (doc.drawing f).map Layer.unfiltered =
      c.appearance f (Priority.winningRule? f d.rules) := by
  unfold Priority.winningRule?
  cases hw : Priority.winner? f d.rules with
  | none =>
    rw [drawing_eq_append h, hw, Option.map_none, Option.getD_none, List.append_nil,
      map_unfiltered_ghosts c hw]
    rfl
  | some i =>
    obtain ⟨r, hr⟩ := Priority.exists_rule_of_winner? hw
    obtain ⟨e, he, rfl⟩ := Priority.exists_effective hr
    rw [drawing_of_winner h hw, emitted_of_effective c he, Option.bind_some, hr]
    exact map_unfiltered_ruleLayers c rfl

end Renderer

/-! ### Nodes -/

namespace Exporter

variable {α : Type u} [Zero α] [One α] [Add α] [Sub α] [Neg α] [Mul α] [Div α] [LT α] [LE α]
  [DecidableLT α] [DecidableLE α] [BEq α] [Hypot α] [OfDouble α]

/-- The nodes that draw a feature, by the rule that wins it. -/
def appearance? (e : Exporter) (c : Canvas α) (f : MapFeature α) :
    Option Rule → Option (List (Drawing.Node α))
  | some r => Export.featureNodes? e.options c r.treatment [f]
  | none => some []

lemma isSome_run?_singleton (e : Exporter) (c : Canvas α) (d : Definition) (f : MapFeature α) :
    (e.run? c d [f]).isSome = true ↔
      (e.appearance? c f (Priority.winningRule? f.toFeature d.rules)).isSome = true := by
  simp only [isSome_run?_iff, Export.wonBy, List.mem_filter, List.mem_singleton]
  unfold Priority.winningRule?
  cases hw : Priority.winner? f.toFeature d.rules with
  | none =>
    refine iff_of_true ?_ rfl
    rintro i r _ _ _ ⟨rfl, hi⟩
    simp [hw] at hi
  | some i =>
    obtain ⟨r, hr⟩ := Priority.exists_rule_of_winner? hw
    rw [Option.bind_some, hr, appearance?, Export.isSome_featureNodes?_iff]
    constructor
    · intro h hstyled
      simpa [hw] using h i r hr hstyled f
    · rintro h j s hs hstyled _ ⟨rfl, hj⟩
      obtain rfl : i = j := by simpa [hw] using hj
      obtain rfl := Option.some.inj (hr.symm.trans hs)
      exact h hstyled _ (List.mem_singleton_self _)

/-- What is exported of a single feature, if that ends, is in the layer of the rule that wins it. -/
lemma ruleGroup_singleton (e : Exporter) (c : Canvas α) (d : Definition) (f : MapFeature α)
    (i : Nat) :
    (e.run? c d [f]).map (fun x => x.drawing.ruleGroup i) =
      (e.appearance? c f (Priority.winningRule? f.toFeature d.rules)).map fun nodes =>
        if Priority.winner? f.toFeature d.rules = some i then nodes else [] := by
  have hends := e.isSome_run?_singleton c d f
  cases hx : e.run? c d [f] with
  | none =>
    rw [hx, Option.isSome_none, Bool.false_eq_true, false_iff,
      Option.not_isSome_iff_eq_none] at hends
    rw [hends, Option.map_none, Option.map_none]
  | some x =>
    obtain ⟨nodes, hnodes⟩ := Option.isSome_iff_exists.mp (hends.mp (Option.isSome_of_eq_some hx))
    rw [hnodes, Option.map_some, Option.map_some, Option.some.injEq]
    split
    · next hw =>
      obtain ⟨r, hr⟩ := Priority.exists_rule_of_winner? hw
      have hwon : Export.wonBy d.rules i [f] = [f] := by simp [Export.wonBy, hw]
      have hgroup := featureNodes?_of_run? hx hr
      rw [Priority.winningRule?, hw, Option.bind_some, hr, appearance?] at hnodes
      rw [hwon, hnodes] at hgroup
      exact (Option.some.inj hgroup).symm
    · next hw =>
      rw [ruleGroup_eq_fates hx, List.filterMap_cons, (fate_elsewhere hw).1]
      rfl

end Exporter

/-- An edit of rules that do not match a feature does not change how it is drawn. The same rule wins
it, or none as before. The layers that draw it in styles compiled under the same settings are the
same but for their filters, and the nodes of its export alone are the same, in the layer of the
winning rule and no other. If the feature cannot be clipped then there is no export of it before and
none after the edit. -/
theorem drawing_unaffected_of_apply {α : Type u} [Zero α] [One α] [Add α] [Sub α] [Neg α] [Mul α]
    [Div α] [LT α] [LE α] [DecidableLT α] [DecidableLE α] [BEq α] [Hypot α] [OfDouble α]
    {d d' : Definition} {e : Edit} {f : Feature} (happly : e.apply d = .ok d')
    (hf : ∀ r ∈ e.affected d, r.filter.compile.holds f = false) :
    Priority.winningRule? f d'.rules = Priority.winningRule? f d.rules ∧
    (∀ c doc doc', Renderer.compile c d = .ok doc → Renderer.compile c d' = .ok doc' →
      (doc'.drawing f).map Renderer.Layer.unfiltered =
        (doc.drawing f).map Renderer.Layer.unfiltered) ∧
    ∀ (exporter : Exporter) (canvas : Canvas α) (g : MapFeature α), g.toFeature = f →
      ∃ nodes? : Option (List (Drawing.Node α)),
        (∀ i, (exporter.run? canvas d [g]).map (fun x => x.drawing.ruleGroup i) =
          nodes?.map fun nodes => if Priority.winner? f d.rules = some i then nodes else []) ∧
        ∀ i, (exporter.run? canvas d' [g]).map (fun x => x.drawing.ruleGroup i) =
          nodes?.map fun nodes => if Priority.winner? f d'.rules = some i then nodes else [] := by
  have hwinning := Edit.winningRule?_apply happly hf
  refine ⟨hwinning, ?_, ?_⟩
  · intro c doc doc' hdoc hdoc'
    rw [Renderer.map_unfiltered_drawing hdoc, Renderer.map_unfiltered_drawing hdoc', hwinning]
  · rintro exporter canvas g rfl
    refine ⟨exporter.appearance? canvas g (Priority.winningRule? g.toFeature d.rules),
      fun i => exporter.ruleGroup_singleton canvas d g i, ?_⟩
    intro i
    rw [← hwinning]
    exact exporter.ruleGroup_singleton canvas d' g i

theorem drawing_unaffected_overlapping :
    ∃ moved doc doc', Edit.apply Renderer.overlappingStyle (.move 2 0) = .ok moved ∧
      (∀ r ∈ Edit.affected Renderer.overlappingStyle (.move 2 0),
        r.filter.compile.holds Renderer.motorway = false) ∧
      Renderer.compile .default Renderer.overlappingStyle = .ok doc ∧
      Renderer.compile .default moved = .ok doc' ∧
      (doc'.drawing Renderer.motorway).map Renderer.Layer.unfiltered =
        (doc.drawing Renderer.motorway).map Renderer.Layer.unfiltered ∧
      ∃ x y, Exporter.plainExporter.run? Exporter.unitCanvas Renderer.overlappingStyle
          [Exporter.motorwayLine] = some x ∧
        Exporter.plainExporter.run? Exporter.unitCanvas moved [Exporter.motorwayLine] = some y ∧
        y.drawing.ruleGroup 2 = x.drawing.ruleGroup 1 := by
  have happly : Edit.apply Renderer.overlappingStyle (.move 2 0) = .ok _ := rfl
  have hf : ∀ r ∈ Edit.affected Renderer.overlappingStyle (.move 2 0),
      r.filter.compile.holds Renderer.motorway = false := by decide
  have hdoc : Renderer.compile .default Renderer.overlappingStyle = .ok _ := rfl
  obtain ⟨-, hdrawing, hnodes⟩ := drawing_unaffected_of_apply (α := Float) happly hf
  obtain ⟨nodes?, hbefore, hafter⟩ :=
    hnodes Exporter.plainExporter Exporter.unitCanvas Exporter.motorwayLine rfl
  obtain ⟨x, hx⟩ := Exporter.exists_run?_motorway Renderer.overlappingStyle
    (show [Exporter.motorwayLine] ⊆ [Exporter.motorwayLine, Exporter.junction] by simp)
  have hbefore := hbefore 1
  have hafter := hafter 2
  rw [hx, Option.map_some] at hbefore
  obtain ⟨nodes, rfl, hgroup⟩ := Option.map_eq_some_iff.mp hbefore.symm
  rw [if_pos (by decide)] at hgroup
  rw [Option.map_some, if_pos (by decide), Option.map_eq_some_iff] at hafter
  obtain ⟨y, hy, hmoved⟩ := hafter
  exact ⟨_, _, _, happly, hf, hdoc, rfl, hdrawing _ _ _ hdoc rfl, x, y, hx, hy,
    hmoved.trans hgroup⟩

end MapStyle
