import MapStyle.Proofs.LayerIds
import MapStyle.Proofs.Paint
import MapStyle.Proofs.SavedPois
import MapStyle.Proofs.Expressions

/-!
# Highlighted points of interest

The labels of saved points of interest are opaque, all others are faded. The renderer finds the
saved ones by numbers, a toggle finds them by the texts of these numbers. Both find the same as long
as every saved point of interest comes from a feature, whatever the edits in between.
-/

namespace MapStyle

/-- Whether a point of interest is what a click on some feature saves. -/
def Poi.IsClicked (p : Poi) : Prop :=
  ∃ f position, Poi.ofFeature? f position = some p

/-- Whether a toggle takes an entry out of the saved points of interest. -/
def Definition.Removes (d : Definition) (poi : Poi) : Prop :=
  ∃ i < d.pois.length, (d.togglePoi poi).pois = d.pois.eraseIdx i

/-! ### Points of interest of features -/

lemma Poi.ofFeature?_eq_some_iff {f : Feature} {position : Point Float} {p : Poi} :
    Poi.ofFeature? f position = some p ↔
      ∃ id, f.id = some id ∧ p = ⟨Text.wordText id, position,
        (firstText? f ["name_en", "name"]).getD (Text.wordText id),
        (firstText? f ["maki_beta", "maki"]).getD ""⟩ := by
  rw [Poi.ofFeature?, Option.map_eq_some_iff]
  simp only [eq_comm]

lemma Poi.IsClicked.exists_id {p : Poi} (h : p.IsClicked) : ∃ id, p.id = Text.wordText id := by
  obtain ⟨f, position, hp⟩ := h
  obtain ⟨id, -, rfl⟩ := Poi.ofFeature?_eq_some_iff.mp hp
  exact ⟨id, rfl⟩

lemma Definition.removes_iff (d : Definition) (poi : Poi) :
    d.Removes poi ↔ poi.id ∈ d.pois.map Poi.id := by
  have htoggle : (d.togglePoi poi).pois = togglePois d.pois poi := rfl
  rw [Removes, htoggle]
  constructor
  · rintro ⟨i, hi, heq⟩
    -- otherwise the toggle would make the list longer
    by_contra hmem
    have hlength := congrArg List.length heq
    rw [togglePois_of_not_mem hmem, List.length_cons, List.length_eraseIdx_of_lt hi] at hlength
    omega
  · intro hmem
    have hsaved : ∃ p ∈ d.pois, (p.id == poi.id) = true := by simpa using hmem
    refine ⟨_, List.findIdx_lt_length_of_exists hsaved, ?_⟩
    rw [togglePois_of_mem hmem, List.eraseP_eq_eraseIdx, List.findIdx?_eq_some_of_exists hsaved]

/-- What edits leave are points of interest from clicks, if all that they toggle are. -/
lemma Edit.isClicked_attemptAll {d : Definition} {edits : List Edit}
    (hstart : ∀ p ∈ d.pois, p.IsClicked) (hedits : ∀ e ∈ edits, ∀ p ∈ e.toggles, p.IsClicked) :
    ∀ p ∈ (attemptAll d edits).pois, p.IsClicked := by
  apply attemptAll_induction (P := fun d => ∀ p ∈ d.pois, p.IsClicked) hstart
  intro e he d d' hd happly
  rw [pois_apply happly]
  have hclicked := hedits e he
  cases e with
  | toggle poi =>
    intro p hp
    rcases Definition.mem_togglePois hp with rfl | hp
    · exact hclicked p (List.mem_singleton_self p)
    · exact hd p hp
  | _ => exact hd

namespace Renderer

/-! ### The layer of points of interest -/

lemma holds_savedPredicate_iff {pois : List Poi} (h : ∀ p ∈ pois, p.IsClicked) (f : Feature) :
    (savedPredicate pois).holds f = true ↔
      ∃ id, f.id = some id ∧ Text.wordText id ∈ pois.map Poi.id := by
  rw [savedPredicate, Predicate.holds_any, List.any_eq_true]
  constructor
  · rintro ⟨test, htest, hholds⟩
    obtain ⟨p, hp, hread⟩ := List.mem_filterMap.mp htest
    obtain ⟨id, hid⟩ := (h p hp).exists_id
    rw [hid, Text.readWord?_wordText] at hread
    cases hread
    have hf : f.id = some id := by simpa [Predicate.holds] using hholds
    exact ⟨id, hf, List.mem_map.mpr ⟨p, hp, hid⟩⟩
  · rintro ⟨id, hf, hmem⟩
    obtain ⟨p, hp, hid⟩ := List.mem_map.mp hmem
    refine ⟨.idEquals id, List.mem_filterMap.mpr ⟨p, hp, ?_⟩, by simp [Predicate.holds, hf]⟩
    rw [hid, Text.readWord?_wordText, Option.map_some]

lemma layer?_poiLayerId {c : Config} {s : PoiSource} (hs : c.pois = some s) {d : Definition}
    {doc : Document} (h : compile c d = .ok doc) :
    doc.layer? poiLayerId = some (c.poiLayer d.pois s) := by
  have hother : ∀ l ∈ c.ghostLayers d.rules ++ (Priority.effective d.rules).flatMap c.ruleLayers,
      ¬(l.id == poiLayerId) = true := by
    intro l hl hid
    have hmem := List.mem_map_of_mem (f := Layer.id) hl
    rw [beq_iff_eq.mp hid, List.map_append, map_id_ghostLayers, map_id_effective] at hmem
    exact poiLayerId_not_mem d.rules hmem
  rw [Document.layer?, layers_of_compile h, Config.layers, List.find?_append,
    List.find?_eq_none.mpr hother, hs]
  rfl

lemma atRest_textOpacity (c : Config) (pois : List Poi) (s : PoiSource) :
    ((c.poiLayer pois s).paint.find? "text-opacity").map atRest =
      some (call "case" [(savedPredicate pois).toJson, .ofFloat 1.0, .ofFloat 0.5]) := by
  have hpaint : (c.poiLayer pois s).paint.find? "text-opacity" =
      some (hoverCase (.ofFloat 1.0)
        (call "case" [(savedPredicate pois).toJson, .ofFloat 1.0, .ofFloat 0.5])) := by
    simp [Config.poiLayer, Config.poiPaint, Dictionary.ofList, Dictionary.find?_insert]
  rw [hpaint]
  rfl

/-- The labels of saved points of interest are highlighted, and no others. Edits start without
points of interest and toggle only what clicks on features give. The layer of a style compiled from
what they leave chooses the opacity of a label, while it is not hovered, by a test that reads as a
predicate. This holds of the features that have an identifier and whose own point of interest a
toggle takes out, wherever it is put. -/
theorem holds_opacityTest_iff_removes {d : Definition} (hnone : d.pois = []) {edits : List Edit}
    (hedits : ∀ e ∈ edits, ∀ p ∈ e.toggles, p.IsClicked) {c : Config} {s : PoiSource}
    (hs : c.pois = some s) {doc : Document} (h : compile c (Edit.attemptAll d edits) = .ok doc) :
    ∃ layer test saved, doc.layer? poiLayerId = some layer ∧
      (layer.paint.find? "text-opacity").map atRest =
        some (call "case" [test, .ofFloat 1.0, .ofFloat 0.5]) ∧
      Predicate.ofJson test = .ok saved ∧
      ∀ (f : Feature) (position : Point Float), saved.holds f = true ↔
        ∃ poi, Poi.ofFeature? f position = some poi ∧ (Edit.attemptAll d edits).Removes poi := by
  refine ⟨_, _, _, layer?_poiLayerId hs h, atRest_textOpacity c _ s, Predicate.ofJson_toJson _, ?_⟩
  have hclicked := Edit.isClicked_attemptAll (d := d) (by simp [hnone]) hedits
  intro f position
  rw [holds_savedPredicate_iff hclicked]
  simp only [Poi.ofFeature?_eq_some_iff, Definition.removes_iff]
  constructor
  · rintro ⟨id, hid, hmem⟩
    exact ⟨_, ⟨id, hid, rfl⟩, hmem⟩
  · rintro ⟨_, ⟨id, hid, rfl⟩, hmem⟩
    exact ⟨id, hid, hmem⟩

/-- A shop with the least identifier. -/
def cornerShop : Feature := ⟨some Int64.minValue, .ofList [("name", .text "Corner Shop")]⟩

def cornerShopPoi : Poi := ⟨"-9223372036854775808", ⟨13.0, 52.0⟩, "Corner Shop", ""⟩

def motorwayPoi : Poi := ⟨"1", ⟨13.5, 52.5⟩, "1", ""⟩

/-- Edits that save a shop, and a motorway for a while. -/
def clicks : List Edit :=
  [.toggle motorwayPoi, .toggle cornerShopPoi, .move 0 2, .toggle motorwayPoi, .remove "hidden"]

theorem holds_opacityTest_cornerShop : overlappingStyle.pois = [] ∧
    (∀ e ∈ clicks, ∀ p ∈ e.toggles, p.IsClicked) ∧
    ∃ doc layer test saved, compile .default (Edit.attemptAll overlappingStyle clicks) = .ok doc ∧
      doc.layer? poiLayerId = some layer ∧
      (layer.paint.find? "text-opacity").map atRest =
        some (call "case" [test, .ofFloat 1.0, .ofFloat 0.5]) ∧
      Predicate.ofJson test = .ok saved ∧
      saved.holds cornerShop = true ∧ saved.holds motorway = false := by
  have hshop : Poi.ofFeature? cornerShop ⟨13.0, 52.0⟩ = some cornerShopPoi := rfl
  have hmotorway : Poi.ofFeature? motorway ⟨13.5, 52.5⟩ = some motorwayPoi := rfl
  have hclicked : ∀ e ∈ clicks, ∀ p ∈ e.toggles, p.IsClicked := by
    have hfirst : cornerShopPoi.IsClicked := ⟨_, _, hshop⟩
    have hsecond : motorwayPoi.IsClicked := ⟨_, _, hmotorway⟩
    simp [clicks, Edit.toggles, hfirst, hsecond]
  have h : compile .default (Edit.attemptAll overlappingStyle clicks) = .ok _ := rfl
  obtain ⟨layer, test, saved, hlayer, hopacity, hread, hsaved⟩ :=
    holds_opacityTest_iff_removes rfl hclicked rfl h
  refine ⟨rfl, hclicked, _, layer, test, saved, h, hlayer, hopacity, hread, ?_, ?_⟩
  · rw [hsaved cornerShop ⟨13.0, 52.0⟩]
    exact ⟨_, hshop, 0, by decide, rfl⟩
  · rw [Bool.eq_false_iff, ne_eq, hsaved motorway ⟨13.5, 52.5⟩]
    rintro ⟨poi, hpoi, hremoves⟩
    obtain rfl := Option.some.inj (hmotorway.symm.trans hpoi)
    rw [Definition.removes_iff] at hremoves
    exact absurd hremoves (by decide)

end Renderer

end MapStyle
