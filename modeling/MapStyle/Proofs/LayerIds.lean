import MapStyle.Proofs.Edits
import MapStyle.Proofs.RendererLayers
import Mathlib.Data.List.Nodup

/-!
# Identities of layers

The identity of a rule's layer is the rule's own with a suffix of five letters; those of the ghosts
and of the points of interest are fixed. An identity has one stem before its last five letters, so
layers of different rules never meet. Of the fixed identities two do end in such a suffix, and both
have the stem `ghost-nature`.
-/

namespace MapStyle.Renderer

/-- The identities of the layers due for a rule. -/
def ruleLayerIds (r : Rule) : List String :=
  (ruleSignature r).map Prod.fst

lemma append_eq_append_iff {stem stem' suffix suffix' : String}
    (hlength : suffix.toList.length = suffix'.toList.length) :
    stem ++ suffix = stem' ++ suffix' ↔ stem = stem' ∧ suffix = suffix' := by
  constructor
  · intro h
    have hchars : stem.toList ++ suffix.toList = stem'.toList ++ suffix'.toList := by
      rw [← String.toList_append, ← String.toList_append, h]
    obtain ⟨hstem, hsuffix⟩ := List.append_inj' hchars hlength
    exact ⟨String.toList_inj.mp hstem, String.toList_inj.mp hsuffix⟩
  · rintro ⟨rfl, rfl⟩
    rfl

/-! ### Layers of rules -/

lemma mem_ruleLayerIds {r : Rule} {id : String} :
    id ∈ ruleLayerIds r ↔ (r.treatment.fill.isSome = true ∧ id = r.id ++ "-fill") ∨
      (r.treatment.line.isSome = true ∧ id = r.id ++ "-line") := by
  unfold ruleLayerIds ruleSignature
  cases r.treatment.fill <;> cases r.treatment.line <;> simp

lemma ruleLayerIds_eq_nil_iff (r : Rule) :
    ruleLayerIds r = [] ↔ r.treatment.isUnstyled = true := by
  unfold ruleLayerIds ruleSignature Treatment.isUnstyled
  cases r.treatment.fill <;> cases r.treatment.line <;> simp

lemma exists_suffix_of_mem {r : Rule} {id : String} (h : id ∈ ruleLayerIds r) :
    ∃ suffix, (suffix = "-fill" ∨ suffix = "-line") ∧ id = r.id ++ suffix := by
  obtain ⟨_, rfl⟩ | ⟨_, rfl⟩ := mem_ruleLayerIds.mp h
  · exact ⟨"-fill", .inl rfl, rfl⟩
  · exact ⟨"-line", .inr rfl, rfl⟩

lemma nodup_ruleLayerIds (r : Rule) : (ruleLayerIds r).Nodup := by
  have hne : r.id ++ "-fill" ≠ r.id ++ "-line" := by
    simp
  unfold ruleLayerIds ruleSignature
  cases r.treatment.fill <;> cases r.treatment.line <;> simp [hne]

lemma disjoint_ruleLayerIds {r s : Rule} (h : r.id ≠ s.id) :
    (ruleLayerIds r).Disjoint (ruleLayerIds s) := by
  intro id hr hs
  obtain ⟨suffix, hsuffix, rfl⟩ := exists_suffix_of_mem hr
  obtain ⟨suffix', hsuffix', heq⟩ := exists_suffix_of_mem hs
  have hlength : suffix.toList.length = suffix'.toList.length := by
    rcases hsuffix with rfl | rfl <;> rcases hsuffix' with rfl | rfl <;> decide
  exact h ((append_eq_append_iff hlength).mp heq).1

lemma nodup_flatMap_ruleLayerIds {rules : List Rule} (h : (rules.map Rule.id).Nodup) :
    (rules.flatMap ruleLayerIds).Nodup := by
  rw [List.nodup_flatMap]
  refine ⟨fun r _ => nodup_ruleLayerIds r, ?_⟩
  rw [List.Nodup, List.pairwise_map] at h
  exact h.imp fun hne => disjoint_ruleLayerIds hne

/-! ### Fixed identities -/

lemma append_mem_ghosts_iff {stem suffix : String} (h : suffix = "-fill" ∨ suffix = "-line") :
    stem ++ suffix ∈ ghosts.map Ghost.id ↔ stem = "ghost-nature" := by
  have hhighways : "ghost-highways" = "ghost-hig" ++ "hways" := rfl
  have hbuildings : "ghost-buildings" = "ghost-buil" ++ "dings" := rfl
  have hfill : "ghost-nature-fill" = "ghost-nature" ++ "-fill" := rfl
  have hline : "ghost-nature-line" = "ghost-nature" ++ "-line" := rfl
  have hids : ghosts.map Ghost.id =
      ["ghost-highways", "ghost-buildings", "ghost-nature-fill", "ghost-nature-line"] := rfl
  -- With five letters split off on both sides, stems and suffixes are compared apart.
  rw [hids, hhighways, hbuildings, hfill, hline]
  rcases h with rfl | rfl <;> simp (disch := decide) [append_eq_append_iff, -String.reduceAppend]

lemma append_ne_poiLayerId {stem suffix : String} (h : suffix = "-fill" ∨ suffix = "-line") :
    stem ++ suffix ≠ poiLayerId := by
  have hpois : poiLayerId = "mapbox" ++ "-pois" := rfl
  rw [hpois, ne_eq]
  rcases h with rfl | rfl <;> simp (disch := decide) [append_eq_append_iff, -String.reduceAppend]

lemma disjoint_ghosts_iff (r : Rule) :
    (ghosts.map Ghost.id).Disjoint (ruleLayerIds r) ↔
      (r.id = "ghost-nature" → r.treatment.isUnstyled = true) := by
  constructor
  · intro hdisjoint hid
    rw [← ruleLayerIds_eq_nil_iff, List.eq_nil_iff_forall_not_mem]
    intro id hmem
    obtain ⟨suffix, hsuffix, rfl⟩ := exists_suffix_of_mem hmem
    exact hdisjoint ((append_mem_ghosts_iff hsuffix).mpr hid) hmem
  · intro hunstyled id hghost hmem
    obtain ⟨suffix, hsuffix, rfl⟩ := exists_suffix_of_mem hmem
    have hnil := (ruleLayerIds_eq_nil_iff r).mpr
      (hunstyled ((append_mem_ghosts_iff hsuffix).mp hghost))
    simp [hnil] at hmem

/-! ### Whole documents -/

lemma map_id_ghostLayers (c : Config) (rules : List Rule) :
    (c.ghostLayers rules).map Layer.id = ghosts.map Ghost.id := by
  rw [Config.ghostLayers, List.map_map]
  rfl

lemma map_id_effective (c : Config) (rules : List Rule) :
    ((Priority.effective rules).flatMap c.ruleLayers).map Layer.id =
      rules.flatMap ruleLayerIds := by
  have hone : ∀ e : EffectiveRule, (c.ruleLayers e).map Layer.id = ruleLayerIds e.rule := by
    intro e
    rw [ruleLayerIds, ← map_signature_ruleLayers c e, List.map_map]
    rfl
  rw [List.map_flatMap]
  simp only [hone]
  rw [← List.flatMap_map, Priority.map_rule_effective]

lemma map_id_layers (c : Config) (d : Definition) :
    (c.layers d).map Layer.id = ghosts.map Ghost.id ++ d.rules.flatMap ruleLayerIds ++
      (c.pois.map fun _ => poiLayerId).toList := by
  have hpois : (c.pois.map (c.poiLayer d.pois)).toList.map Layer.id =
      (c.pois.map fun _ => poiLayerId).toList := by
    cases c.pois <;> rfl
  rw [Config.layers, List.map_append, List.map_append, map_id_effective, map_id_ghostLayers, hpois]

lemma poiLayerId_not_mem (rules : List Rule) :
    poiLayerId ∉ ghosts.map Ghost.id ++ rules.flatMap ruleLayerIds := by
  intro hmem
  rcases List.mem_append.mp hmem with hghost | hrule
  · exact absurd hghost (by decide)
  · obtain ⟨r, _, hr⟩ := List.mem_flatMap.mp hrule
    obtain ⟨suffix, hsuffix, heq⟩ := exists_suffix_of_mem hr
    exact append_ne_poiLayerId hsuffix heq.symm

lemma nodup_layers_iff (c : Config) {d : Definition} (h : (d.rules.map Rule.id).Nodup) :
    ((c.layers d).map Layer.id).Nodup ↔
      ∀ r ∈ d.rules, r.id = "ghost-nature" → r.treatment.isUnstyled = true := by
  have hghosts : (ghosts.map Ghost.id).Nodup := by decide
  have hpois : (c.pois.map fun _ => poiLayerId).toList.Nodup := by
    cases c.pois <;> simp
  have hapart : (ghosts.map Ghost.id ++ d.rules.flatMap ruleLayerIds).Disjoint
      (c.pois.map fun _ => poiLayerId).toList := by
    intro id hmem hpoi
    obtain ⟨_, _, rfl⟩ := Option.map_eq_some_iff.mp (Option.mem_toList.mp hpoi)
    exact poiLayerId_not_mem d.rules hmem
  have hrules : (ghosts.map Ghost.id).Disjoint (d.rules.flatMap ruleLayerIds) ↔
      ∀ r ∈ d.rules, (ghosts.map Ghost.id).Disjoint (ruleLayerIds r) := by
    simp only [List.Disjoint, List.mem_flatMap]
    grind
  rw [map_id_layers, List.nodup_append', List.nodup_append', hrules]
  simp only [disjoint_ghosts_iff]
  simp [hghosts, hpois, hapart, nodup_flatMap_ruleLayerIds h]

lemma find?_id_of_nodup {layers : List Layer} (h : (layers.map Layer.id).Nodup) {l : Layer}
    (hl : l ∈ layers) : layers.find? (·.id == l.id) = some l := by
  induction layers with
  | nil => simp at hl
  | cons first layers ih =>
    rw [List.map_cons, List.nodup_cons] at h
    rcases List.mem_cons.mp hl with rfl | hl
    · simp
    · have hne : first.id ≠ l.id := fun heq => h.1 (heq ▸ List.mem_map_of_mem hl)
      rw [List.find?_cons_of_neg (by simpa using hne), ih h.2 hl]

/-- When layers share identities. The identities of a compiled style are different unless a rule
that is not unstyled is called `ghost-nature`. Then its layers have the identities of the two ghosts
for nature, and looking these up gives the ghosts. -/
theorem nodup_id_layers_of_compile {c : Config} {d : Definition} {doc : Document}
    (h : compile c d = .ok doc) :
    ((doc.layers.map Layer.id).Nodup ↔
      ∀ r ∈ d.rules, r.id = "ghost-nature" → r.treatment.isUnstyled = true) ∧
    ((doc.layers.map Layer.id).Nodup → ∀ l ∈ doc.layers, doc.layer? l.id = some l) ∧
    ∀ l ∈ c.ghostLayers d.rules, doc.layer? l.id = some l := by
  have hvalid : (d.rules.map Rule.id).Nodup :=
    ((Definition.validate_eq_ok_iff d).mp ((compile_eq_ok_iff c d doc).mp h).1).1
  have hlayers := layers_of_compile h
  refine ⟨?_, fun hnodup l hl => find?_id_of_nodup hnodup hl, ?_⟩
  · rw [hlayers, nodup_layers_iff c hvalid]
  · intro l hl
    have hghosts : ((c.ghostLayers d.rules).map Layer.id).Nodup := by
      have hids : (c.ghostLayers d.rules).map Layer.id = ghosts.map Ghost.id := rfl
      rw [hids]
      decide
    rw [Document.layer?, hlayers, Config.layers, List.find?_append, List.find?_append,
      find?_id_of_nodup hghosts hl]
    rfl

theorem nodup_id_layers_overlapping : ∃ doc, compile .default overlappingStyle = .ok doc ∧
    (doc.layers.map Layer.id).Nodup := by
  have h : compile .default overlappingStyle = .ok _ := rfl
  refine ⟨_, h, (nodup_id_layers_of_compile h).1.mpr ?_⟩
  decide

/-- A style of one rule for parks, with the stem of two ghosts for its identity. -/
def natureStyle : Definition := ⟨⟨"nature"⟩,
  [(Rule.plain "ghost-nature" (.keyValue "leisure" "park")).withFill ⟨.ofRgb8 0 255 0⟩], []⟩

/-- A park, which the rule for parks wins. -/
def park : Feature := ⟨none, .ofList [("leisure", .text "park")]⟩

theorem shared_id_nature : ∃ doc, compile .default natureStyle = .ok doc ∧
    ¬(doc.layers.map Layer.id).Nodup ∧
    (doc.drawing park).map Layer.id = ["ghost-nature-fill"] ∧
    (doc.layer? "ghost-nature-fill").map (fun l => l.draws park) = some false := by
  have h : compile .default natureStyle = .ok _ := rfl
  refine ⟨_, h, by decide, by decide, by decide⟩

end MapStyle.Renderer
